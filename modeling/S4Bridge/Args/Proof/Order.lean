import S4Bridge.Lib.Reorder
import S4Bridge.Args.Proof.Numbers

/-!
# The order of the flags

Flags change different options, or set the same option to the same value (`changes_comm`), and a flag
sets its option whatever it was (`changes_overwrite`). The value of a flag is read without looking at
the options. So the order of the flags on an accepted command line says only which value of a repeated
flag comes last (`parseArgs_reordered`).
-/

namespace Args

open Reorder

/-! ## Changes -/

/-- The changes of different flags commute. -/
theorem changes_comm {f f' : Flag} (hne : f ≠ f') {u u' : AppOptions → AppOptions}
    (h : f.Changes u) (h' : f'.Changes u') (o : AppOptions) : u' (u o) = u (u' o) := by
  cases f
  case stream | inputDebug | inputDebugButtons | rawSysex =>
    obtain rfl := h
    cases f' <;>
      first
      | exact absurd rfl hne
      | (obtain ⟨text, v, -, rfl⟩ := h'.parsed rfl
         rfl)
      | (obtain rfl := h'
         rfl)
  all_goals
    obtain ⟨text, v, -, rfl⟩ := h.parsed rfl
    cases f' <;>
      first
      | exact absurd rfl hne
      | (obtain ⟨text', v', -, rfl⟩ := h'.parsed rfl
         rfl)
      | (obtain rfl := h'
         rfl)

/-- A flag leaves nothing of what it did before. -/
theorem changes_overwrite {f : Flag} {u u' : AppOptions → AppOptions} (h : f.Changes u)
    (h' : f.Changes u') (o : AppOptions) : u' (u o) = u' o := by
  cases f
  case stream | inputDebug | inputDebugButtons | rawSysex =>
    obtain rfl := h
    obtain rfl := h'
    rfl
  all_goals
    obtain ⟨text, v, -, rfl⟩ := h.parsed rfl
    obtain ⟨text', v', -, rfl⟩ := h'.parsed rfl
    rfl

/-! ## Groups -/

/-- A flag as it is typed, and its value if it takes one. -/
structure Group where
  flag : String
  value : Option String
  deriving DecidableEq, Repr

def Group.args (g : Group) : List String := g.flag :: g.value.toList

/-- The flag is known, and there is a value exactly if it takes one. -/
def Group.WellFormed (g : Group) : Prop :=
  ∃ f, Flag.ofText g.flag = some f ∧ (g.value.isSome ↔ ∃ read, f.action = .value read)

/-- The flags of a command line, each with its value. -/
def groups : List String → List Group
  | [] => []
  | text :: rest =>
    match (Flag.ofText text).map Flag.action with
    | some (.value _) =>
      match rest with
      | [] => [⟨text, none⟩]
      | value :: rest => ⟨text, some value⟩ :: groups rest
    | _ => ⟨text, none⟩ :: groups rest

/-- The change a group makes, if it is accepted. -/
def Group.update (g : Group) : Option (AppOptions → AppOptions) :=
  match (Flag.ofText g.flag).map Flag.action, g.value with
  | some (.switch set), none => some set
  | some (.value read), some value => (read value).toOption
  | _, _ => none

def Group.apply (o : AppOptions) (g : Group) : AppOptions := g.update.getD id o

theorem toOption_eq_some {ε α : Type*} {x : Except ε α} {a : α} :
    x.toOption = some a ↔ x = .ok a := by
  cases x with
  | error what => exact ⟨fun h => (by cases h), fun h => (by cases h)⟩
  | ok b => exact ⟨fun h => congrArg _ (Option.some.inj h), fun h => congrArg _ (Except.ok.inj h)⟩

/-- What an accepted group is. -/
theorem update_cases {g : Group} {u : AppOptions → AppOptions} (h : g.update = some u) :
    ∃ f, Flag.ofText g.flag = some f ∧
      (f.action = .switch u ∧ g.value = none ∨
        ∃ read value, f.action = .value read ∧ g.value = some value ∧ read value = .ok u) := by
  unfold Group.update at h
  split at h
  · rename_i set haction hvalue
    obtain ⟨f, hf, hset⟩ := Option.map_eq_some_iff.1 haction
    obtain rfl := Option.some.inj h
    exact ⟨f, hf, .inl ⟨hset, hvalue⟩⟩
  · rename_i read value haction hvalue
    obtain ⟨f, hf, hread⟩ := Option.map_eq_some_iff.1 haction
    exact ⟨f, hf, .inr ⟨read, value, hread, hvalue, toOption_eq_some.1 h⟩⟩
  · cases h

theorem update_changes {g : Group} {u : AppOptions → AppOptions} (h : g.update = some u) :
    ∃ f, Flag.ofText g.flag = some f ∧ f.Changes u := by
  obtain ⟨f, hf, ⟨hset, -⟩ | ⟨read, value, hread, -, hu⟩⟩ := update_cases h
  · exact ⟨f, hf, changes_switch hset⟩
  · exact ⟨f, hf, changes_value hread hu⟩

theorem update_wellFormed {g : Group} {u : AppOptions → AppOptions} (h : g.update = some u) :
    g.WellFormed := by
  obtain ⟨f, hf, ⟨hset, hvalue⟩ | ⟨read, value, hread, hvalue, -⟩⟩ := update_cases h
  · refine ⟨f, hf, ?_⟩
    rw [hset, hvalue]
    simp
  · exact ⟨f, hf, iff_of_true (by rw [hvalue]; rfl) ⟨read, hread⟩⟩

/-! ## The loop, group by group -/

theorem parseFlags_group {g : Group} {u : AppOptions → AppOptions} (h : g.update = some u)
    (o : AppOptions) (rest : List String) :
    parseFlags o (g.args ++ rest) = parseFlags (u o) rest := by
  obtain ⟨f, hf, ⟨hset, hvalue⟩ | ⟨read, value, hread, hvalue, hu⟩⟩ := update_cases h
  · rw [Group.args, hvalue, Option.toList_none, List.singleton_append, parseFlags, hf]
    simp only [hset]
  · rw [Group.args, hvalue, Option.toList_some, List.cons_append, List.singleton_append,
      parseFlags, hf]
    simp only [hread, hu]

/-- Accepted groups are applied one after the other. -/
theorem parseFlags_groups {gs : List Group} (h : ∀ g ∈ gs, g.update.isSome) (o : AppOptions) :
    parseFlags o (gs.flatMap Group.args) = .ok (gs.foldl Group.apply o) := by
  induction gs generalizing o with
  | nil => rfl
  | cons g gs ih =>
    obtain ⟨u, hu⟩ := Option.isSome_iff_exists.1 (h g (by simp))
    have happly : Group.apply o g = u o := by rw [Group.apply, hu]; rfl
    rw [List.flatMap_cons, parseFlags_group hu, ih fun g' hg' => h g' (.tail g hg'),
      List.foldl_cons, happly]

/-- An accepted command line is that of its groups, and they are accepted. -/
theorem Reads.groups {o o' : AppOptions} {flags : List String} (h : Reads o flags o') :
    (Args.groups flags).flatMap Group.args = flags ∧
      ∀ g ∈ Args.groups flags, g.update.isSome := by
  induction h with
  | done o => exact ⟨rfl, by simp [Args.groups]⟩
  | @switch o o' text rest f set hf hset _ ih =>
    obtain ⟨hargs, hall⟩ := ih
    have hgroups : Args.groups (text :: rest) = ⟨text, none⟩ :: Args.groups rest := by
      rw [Args.groups.eq_def]
      simp only [hf, Option.map_some, hset]
    have hupdate : (Group.mk text none).update = some set := by
      simp only [Group.update, hf, Option.map_some, hset]
    rw [hgroups]
    refine ⟨by rw [List.flatMap_cons, hargs]; rfl, ?_⟩
    rw [List.forall_mem_cons]
    exact ⟨by rw [hupdate]; rfl, hall⟩
  | @value o o' text value rest f read update hf hread hu _ ih =>
    obtain ⟨hargs, hall⟩ := ih
    have hgroups : Args.groups (text :: value :: rest) =
        ⟨text, some value⟩ :: Args.groups rest := by
      simp only [Args.groups, hf, Option.map_some, hread]
    have hupdate : (Group.mk text (some value)).update = some update := by
      simp only [Group.update, hf, Option.map_some, hread, hu]
      rfl
    rw [hgroups]
    refine ⟨by rw [List.flatMap_cons, hargs]; rfl, ?_⟩
    rw [List.forall_mem_cons]
    exact ⟨by rw [hupdate]; rfl, hall⟩

/-! ## Other orders -/

/-- A flag is typed in one way. -/
theorem ofText_inj {text text' : String} {f : Flag} (h : Flag.ofText text = some f)
    (h' : Flag.ofText text' = some f) : text = text' := by
  have hall : ∀ e ∈ Flag.all, ∀ e' ∈ Flag.all, e.2 = e'.2 → e.1 = e'.1 := by decide
  have hmem : ∀ {t : String}, Flag.ofText t = some f → (t, f) ∈ Flag.all := fun {t} ht => by
    obtain ⟨before, behind, hsplit, -⟩ := List.lookup_eq_some_iff.1 ht
    rw [hsplit]
    simp
  exact hall _ (hmem h) _ (hmem h') rfl

theorem groups_independent (gs : List Group) : Independent Group.flag Group.apply gs := by
  intro a _ b _ hne o
  cases ha : a.update with
  | none => simp [Group.apply, ha]
  | some u =>
    cases hb : b.update with
    | none => simp [Group.apply, hb]
    | some u' =>
      obtain ⟨f, hf, hu⟩ := update_changes ha
      obtain ⟨f', hf', hu'⟩ := update_changes hb
      have hflags : f ≠ f' := by
        rintro rfl
        exact hne (ofText_inj hf hf')
      simp only [Group.apply, ha, hb, Option.getD_some]
      exact changes_comm hflags hu hu' o

theorem groups_overwriting {gs : List Group} (h : ∀ g ∈ gs, g.update.isSome) :
    Overwriting Group.flag Group.apply gs := by
  intro a ha b hb heq o
  obtain ⟨u, hu⟩ := Option.isSome_iff_exists.1 (h a ha)
  obtain ⟨u', hu'⟩ := Option.isSome_iff_exists.1 (h b hb)
  obtain ⟨f, hf, hchange⟩ := update_changes hu
  obtain ⟨f', hf', hchange'⟩ := update_changes hu'
  obtain rfl : f = f' := Option.some.inj (hf.symm.trans (heq ▸ hf'))
  simp only [Group.apply, hu, hu', Option.getD_some]
  exact changes_overwrite hchange hchange' o

theorem parseFlags_reordered {gs gs' : List Group} (h : ∀ g ∈ gs, g.update.isSome)
    (hr : Reordered Group.flag gs gs') (o : AppOptions) :
    parseFlags o (gs'.flatMap Group.args) = parseFlags o (gs.flatMap Group.args) := by
  have h' : ∀ g ∈ gs', g.update.isSome := fun g hg => h g (hr.perm.mem_iff.2 hg)
  rw [parseFlags_groups h, parseFlags_groups h', foldl_reordered (groups_independent gs') hr]

theorem parseFlags_lastOfEach {gs : List Group} (h : ∀ g ∈ gs, g.update.isSome) (o : AppOptions) :
    parseFlags o ((lastOfEach Group.flag gs).flatMap Group.args) =
      parseFlags o (gs.flatMap Group.args) := by
  have h' : ∀ g ∈ lastOfEach Group.flag gs, g.update.isSome := fun g hg =>
    h g (lastOfEach_subset Group.flag gs hg)
  rw [parseFlags_groups h, parseFlags_groups h',
    foldl_lastOfEach (groups_independent gs) (groups_overwriting h)]

/-! ## The whole command line -/

/-- Flags that do the same are as good. -/
theorem parseArgs_congr {args flags : List String} {o : AppOptions} (h : parseArgs args = .ok o)
    (hsame : ∀ start, parseFlags start flags = parseFlags start (args.drop 2)) :
    parseArgs (args.take 2 ++ flags) = .ok o := by
  match args with
  | [] | [_] => cases h
  | program :: mode :: rest =>
    rw [← h]
    show parseArgs (program :: mode :: flags) = parseArgs (program :: mode :: rest)
    simp only [parseArgs, hsame, List.drop_succ_cons, List.drop_zero]

theorem changes_debug {f : Flag} {update : AppOptions → AppOptions} (h : f.Changes update)
    (o : AppOptions) (ho : o.inputDebugButtonsOnly = true → o.inputDebug = true) :
    (update o).inputDebugButtonsOnly = true → (update o).inputDebug = true := by
  cases f
  case inputDebug | inputDebugButtons =>
    obtain rfl := h
    exact fun _ => rfl
  case stream | rawSysex =>
    obtain rfl := h
    exact ho
  all_goals
    obtain ⟨text, v, -, rfl⟩ := h.parsed rfl
    exact ho

/-- **The order of the flags**: on an accepted command line, any order in which repeated occurrences
of a flag keep theirs is accepted with the same options, the last occurrence of each flag is enough,
and the options have passed every check. -/
theorem parseArgs_reordered {args : List String} {o : AppOptions} (h : parseArgs args = .ok o) :
    let gs := groups (args.drop 2)
    let line (gs : List Group) := args.take 2 ++ gs.flatMap Group.args
    line gs = args ∧ (∀ g ∈ gs, g.WellFormed) ∧
    (∀ gs', Reordered Group.flag gs gs' → parseArgs (line gs') = .ok o) ∧
    parseArgs (line (lastOfEach Group.flag gs)) = .ok o ∧
    o.usb.vendorId ≠ 0 ∧ o.usb.productId ≠ 0 ∧ o.midiBaseChannel ≤ 15 ∧ o.inputDeadzone ≤ 127 ∧
    0 < o.writeRepeat ∧ 0 ≤ o.writeIntervalMs ∧
    (o.inputDebugButtonsOnly = true → o.inputDebug = true) ∧
    (o.mode = .bridge → o.usb.inputEndpoint ≠ 0 ∧ 0 < o.usb.reportSize) := by
  intro gs line
  obtain ⟨mode, hflags, -⟩ := parseArgs_ok h
  have hreads := parseFlags_reads hflags
  obtain ⟨hargs, hall⟩ : gs.flatMap Group.args = args.drop 2 ∧ ∀ g ∈ gs, g.update.isSome :=
    hreads.groups
  obtain ⟨hvalid, hvendor, hproduct, hbridge⟩ := parseArgs_valid h
  refine ⟨?_, fun g hg => ?_, fun gs' hr => parseArgs_congr h fun start => ?_,
    parseArgs_congr h fun start => ?_, hvendor, hproduct, ?_, ?_, hvalid.writeRepeat,
    hvalid.writeIntervalMs, ?_, hbridge⟩
  · show args.take 2 ++ gs.flatMap Group.args = args
    rw [hargs, List.take_append_drop]
  · obtain ⟨u, hu⟩ := Option.isSome_iff_exists.1 (hall g hg)
    exact update_wellFormed hu
  · rw [parseFlags_reordered hall hr, hargs]
  · rw [parseFlags_lastOfEach hall, hargs]
  · exact UInt8.le_iff_toNat_le.2 (Nat.le_of_lt_succ hvalid.midiBaseChannel)
  · exact UInt8.le_iff_toNat_le.2 hvalid.inputDeadzone
  · exact hreads.invariant (fun f update => changes_debug) (fun hfalse => by cases hfalse)

/-- A repeated flag, and another between its occurrences. -/
theorem parseArgs_reordered_vid :
    ∃ o, parseArgs ["s4_mk1_usb2midi", "probe", "--vid", "1", "--pid", "2", "--vid", "0x17cc"] =
        .ok o ∧ o.usb.vendorId = 0x17CC ∧
      parseArgs ["s4_mk1_usb2midi", "probe", "--pid", "2", "--vid", "1", "--vid", "0x17cc"] =
        .ok o := by
  have hparse : parseArgs ["s4_mk1_usb2midi", "probe", "--vid", "1", "--pid", "2", "--vid",
      "0x17cc"] = .ok { usb := { vendorId := 0x17CC, productId := 2 } } := by decide +kernel
  refine ⟨_, hparse, rfl, ?_⟩
  refine (parseArgs_reordered hparse).2.2.1
    [⟨"--pid", some "2"⟩, ⟨"--vid", some "1"⟩, ⟨"--vid", some "0x17cc"⟩]
    ⟨by decide +kernel, fun k => ?_⟩
  have hgroups : groups ["--vid", "1", "--pid", "2", "--vid", "0x17cc"] =
      [⟨"--vid", some "1"⟩, ⟨"--pid", some "2"⟩, ⟨"--vid", some "0x17cc"⟩] := by decide +kernel
  show (groups ["--vid", "1", "--pid", "2", "--vid", "0x17cc"]).filter _ = _
  rw [hgroups]
  by_cases hk : k = "--vid"
  · subst hk
    rfl
  · simp [List.filter_cons, Ne.symm hk]

end Args
