import S4Bridge.Gui.ByteMap
import S4Bridge.Lib.Grouping
import S4Bridge.Lib.Pump

/-!
# The mapping rules of the GUI (`midi_dev_tester.py`)

The rules are kept three times: as a list, in a dictionary by incoming key and as the rows of a tree,
whose item ids are the positions in the list. `RulePanel` is this part of the application, with what
the buttons of the rule editor do to it; `outMsg` is what a rule makes of an incoming value.

The kind and mode fields are read-only comboboxes, so they hold one of the kinds and modes. What the
entry fields hold is text, and Python's `int` is a parameter: any reading of texts as numbers, with any
texts for what it raises.
-/

namespace Gui

/-! ## Tk's tree -/

/-- The rows of a `Treeview`, in order, each under its item id. -/
structure Treeview (ρ : Type*) where
  rows : List (String × ρ) := []
  deriving DecidableEq, Repr

namespace Treeview

variable {ρ : Type*} (tree : Treeview ρ)

def getChildren : List String := tree.rows.map (·.1)

/-- A row with the id, which Tk refuses if there is one. -/
def insertEnd (iid : String) (values : ρ) : Effect (Treeview ρ) PyError :=
  if iid ∈ tree.getChildren then .raise tree .tclError else .ok ⟨tree.rows ++ [(iid, values)]⟩

def delete (iid : String) : Effect (Treeview ρ) PyError :=
  if iid ∈ tree.getChildren then .ok ⟨tree.rows.filter (·.1 ≠ iid)⟩ else .raise tree .tclError

/-- The row with the id gets other values. -/
def item (iid : String) (values : ρ) : Effect (Treeview ρ) PyError :=
  if iid ∈ tree.getChildren then
    .ok ⟨tree.rows.map fun row => if row.1 = iid then (iid, values) else row⟩
  else .raise tree .tclError

end Treeview

/-! ## Rules -/

inductive ValueMode
  | passthrough | fixed
  deriving DecidableEq, Repr

/-- Kind, 1-based channel and index. -/
abbrev Key := Kind × Int × Int

structure MappingRule where
  inKind : Kind
  inChannel : Int
  inIndex : Int
  outKind : Kind
  outChannel : Int
  outIndex : Int
  valueMode : ValueMode
  fixedValue : Int
  enabled : Bool
  deriving DecidableEq, Repr

def MappingRule.incomingKey (rule : MappingRule) : Key :=
  (rule.inKind, rule.inChannel, rule.inIndex)

/-- What the tree shows of a rule. -/
structure RuleRow where
  enabled : String
  inKind : Kind
  inChannel : Int
  inIndex : Int
  outKind : Kind
  outChannel : Int
  outIndex : Int
  valueMode : ValueMode
  fixedValue : Int
  deriving DecidableEq, Repr

def MappingRule.values (r : MappingRule) : RuleRow where
  enabled := if r.enabled then "Y" else "N"
  inKind := r.inKind
  inChannel := r.inChannel
  inIndex := r.inIndex
  outKind := r.outKind
  outChannel := r.outChannel
  outIndex := r.outIndex
  valueMode := r.valueMode
  fixedValue := r.fixedValue

structure RulePanel where
  rules : List MappingRule := []
  ruleByKey : AList (fun _ : Key => List MappingRule) := ∅
  rulesTree : Treeview RuleRow := {}

namespace RulePanel

variable (panel : RulePanel)

def rebuildRuleIndex : RulePanel :=
  { panel with ruleByKey := Grouping.group MappingRule.incomingKey panel.rules }

def refreshRulesTree : Effect RulePanel PyError :=
  let cleared := Effect.each (fun iid tree => tree.delete iid) panel.rulesTree.getChildren
    panel.rulesTree
  let filled := cleared.andThen (Effect.each
    (fun (r, idx) tree => tree.insertEnd (toString idx) r.values) panel.rules.zipIdx)
  filled.lift fun tree => { panel with rulesTree := tree }

/-- The list of rules changes, and what is made from it. -/
def setRules (rules : List MappingRule) : Effect RulePanel PyError :=
  ({ panel with rules }.rebuildRuleIndex).refreshRulesTree

def loadDemoRules : Effect RulePanel PyError :=
  panel.setRules
    [⟨.cc, 1, 0, .cc, 1, 0, .passthrough, 127, true⟩,
      ⟨.noteOn, 1, 36, .noteOn, 1, 36, .passthrough, 127, true⟩]

end RulePanel

/-! ## The rule editor -/

/-- The fields of the editor. -/
structure Editor where
  inKindVar : Kind
  inChVar : String
  inIdxVar : String
  outKindVar : Kind
  outChVar : String
  outIdxVar : String
  modeVar : ValueMode
  fixedVar : String
  enabledVar : Bool
  deriving DecidableEq, Repr

/-- Python's `int` of a text: the number, or the text of the `ValueError` it raises. -/
abbrev PyInt := String → Except String Int

/-- What `int` answers to a text that is no number. -/
def noInteger : PyInt := fun text =>
  .error ("invalid literal for int() with base 10: '" ++ text ++ "'")

variable (pyInt : PyInt)

def readInt (text : String) (lo hi : Int) (name : String) : Except PyError Int :=
  match pyInt text with
  | .error _ => .error (.valueError (name ++ " must be an integer"))
  | .ok value =>
    if value < lo ∨ value > hi then
      .error (.valueError (name ++ " must be between " ++ toString lo ++ " and " ++ toString hi))
    else .ok value

/-- The rule in the editor's fields. -/
def Editor.rule (editor : Editor) : Except PyError MappingRule := do
  let inChannel ← readInt pyInt editor.inChVar 1 16 "In channel"
  let inIndex ← readInt pyInt editor.inIdxVar 0 127 "In index"
  let outChannel ← readInt pyInt editor.outChVar 1 16 "Out channel"
  let outIndex ← readInt pyInt editor.outIdxVar 0 127 "Out index"
  let fixedValue ← readInt pyInt editor.fixedVar 0 127 "Fixed value"
  return ⟨editor.inKindVar, inChannel, inIndex, editor.outKindVar, outChannel, outIndex,
    editor.modeVar, fixedValue, editor.enabledVar⟩

namespace RulePanel

variable (panel : RulePanel)

/-- A text that makes no rule is answered with a message box. -/
def addRuleFromEditor (editor : Editor) : Effect RulePanel PyError :=
  match editor.rule pyInt with
  | .error _ => .ok panel
  | .ok rule => panel.setRules (panel.rules ++ [rule])

/-- What is done with the first selected row's rule, at its position. -/
def withSelectedRule (selection : List String)
    (f : Nat → MappingRule → Effect RulePanel PyError) : Effect RulePanel PyError :=
  match selection with
  | [] => .ok panel
  | iid :: _ =>
    match pyInt iid with
    | .error message => .raise panel (.valueError message)
    | .ok idx =>
      if idx < 0 then .ok panel
      else
        match panel.rules[idx.toNat]? with
        | none => .ok panel
        | some rule => f idx.toNat rule

def deleteSelectedRule (selection : List String) : Effect RulePanel PyError :=
  panel.withSelectedRule pyInt selection fun idx _ => panel.setRules (panel.rules.eraseIdx idx)

def duplicateSelectedRule (selection : List String) : Effect RulePanel PyError :=
  panel.withSelectedRule pyInt selection fun _ r =>
    panel.setRules (panel.rules ++
      [⟨r.inKind, r.inChannel, r.inIndex, r.outKind, r.outChannel, r.outIndex, r.valueMode,
        r.fixedValue, r.enabled⟩])

end RulePanel

/-! ## Outgoing messages -/

def buildOutMsg (kind : Kind) (channel index value : Int) : Option Message :=
  let channel0 := channel - 1
  if channel0 < 0 ∨ channel0 > 15 then none
  else
    let channel0 := Fin.ofNat 16 channel0.toNat
    let index := Fin.ofNat 128 (max 0 (min 127 index)).toNat
    let value := Fin.ofNat 128 (max 0 (min 127 value)).toNat
    match kind with
    | .cc => some (.controlChange channel0 index value)
    | .noteOn => some (.noteOn channel0 index value)
    | .noteOff => some (.noteOff channel0 index value)

/-- What a rule makes of an incoming value. -/
def MappingRule.outMsg (rule : MappingRule) (inValue : Int) : Option Message :=
  let outValue := if rule.valueMode = .passthrough then inValue else rule.fixedValue
  let outValue := max 0 (min 127 outValue)
  buildOutMsg rule.outKind rule.outChannel rule.outIndex outValue

end Gui
