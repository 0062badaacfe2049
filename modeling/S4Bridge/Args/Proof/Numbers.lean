import S4Bridge.Args.Parse

/-!
# What becomes of numeric arguments

`parse_args` stores what the last value of a flag is read as (`Reads.last`). `stoul` and `stoi`
read a numeral at the beginning of the value and nothing looks at what follows; the unsigned parsers
cut the result to the width of the option. So an accepted command line is stored exactly as written
if and only if every value that counts is a numeral as a whole and fits its option (`numbers_iff`).
-/

namespace Args

open Numerals

theorem map_eq_ok {ε α β : Type*} {x : Except ε α} {f : α → β} {b : β} (h : x.map f = .ok b) :
    ∃ a, x = .ok a ∧ f a = b := by
  cases x with
  | error what => cases h
  | ok a => exact ⟨a, rfl, Except.ok.inj h⟩

/-! ## Parsers -/

/-- `stoul` stores the number read modulo 2^64, whatever follows it. -/
theorem stoul_ok {base : Nat} {text : List Char} {x : UInt64} (h : stoul base text = .ok x) :
    ∃ m, scan base text = some m ∧ m.magnitude ≤ 0xFFFFFFFFFFFFFFFF ∧
      (x.toNat : Int) = m.value % 0x10000000000000000 := by
  unfold stoul at h
  cases hscan : scan base text with
  | none =>
    rw [hscan] at h
    cases h
  | some m =>
    rw [hscan] at h
    simp only at h
    split at h
    · cases h
    · rename_i hfits
      have hnat : (UInt64.ofNat m.magnitude).toNat = m.magnitude :=
        Nat.mod_eq_of_lt (by omega)
      refine ⟨m, rfl, by omega, ?_⟩
      rw [← Except.ok.inj h, Numeral.value]
      cases m.negative with
      | false =>
        rw [if_neg (by decide), if_neg (by decide), hnat]
        omega
      | true =>
        have hsize : UInt64.size = 0x10000000000000000 := rfl
        rw [if_pos rfl, if_pos rfl, UInt64.toNat_neg, hnat, hsize]
        omega

theorem stoi_ok {base : Nat} {text : List Char} {n : Int} (h : stoi base text = .ok n) :
    ∃ m, scan base text = some m ∧ m.value = n ∧ -0x80000000 ≤ n ∧ n ≤ 0x7FFFFFFF := by
  unfold stoi at h
  cases hscan : scan base text with
  | none =>
    rw [hscan] at h
    cases h
  | some m =>
    rw [hscan] at h
    simp only at h
    split at h
    · cases h
    · obtain rfl := Except.ok.inj h
      exact ⟨m, rfl, rfl, by omega, by omega⟩

theorem parseU16_ok {text : String} {x : UInt16} (h : parseU16 text = .ok x) :
    ∃ m, scan 0 text.toList = some m ∧ (x.toNat : Int) = m.value % 0x10000 := by
  obtain ⟨y, hy, rfl⟩ := map_eq_ok h
  obtain ⟨m, hscan, -, hvalue⟩ := stoul_ok hy
  refine ⟨m, hscan, ?_⟩
  rw [UInt64.toNat_toUInt16]
  omega

theorem parseU8_ok {text : String} {x : UInt8} (h : parseU8 text = .ok x) :
    ∃ m, scan 0 text.toList = some m ∧ (x.toNat : Int) = m.value % 0x100 := by
  obtain ⟨y, hy, rfl⟩ := map_eq_ok h
  obtain ⟨m, hscan, -, hvalue⟩ := stoul_ok hy
  refine ⟨m, hscan, ?_⟩
  rw [UInt64.toNat_toUInt8]
  omega

theorem parseChecked_ok {valid : Int → Bool} {what text : String} {n : Int}
    (h : parseChecked valid what text = .ok n) : parseI32 text = .ok n ∧ valid n = true := by
  unfold parseChecked at h
  cases hparse : parseI32 text with
  | error what =>
    rw [hparse] at h
    cases h
  | ok m =>
    rw [hparse] at h
    simp only at h
    split at h
    · rename_i hvalid
      obtain rfl := Except.ok.inj h
      exact ⟨rfl, hvalid⟩
    · cases h

/-! ## The loop over the flags -/

/-- The values a command line gives for a flag, in order. -/
def values (flag : Flag) : List String → List String
  | [] => []
  | text :: rest =>
    match Flag.ofText text with
    | none => []
    | some f =>
      match f.action with
      | .switch _ => values flag rest
      | .value _ =>
        match rest with
        | [] => []
        | value :: rest => if f = flag then value :: values flag rest else values flag rest

/-- The value that counts. -/
def lastValue (flag : Flag) (flags : List String) : Option String := (values flag flags).getLast?

/-- `update` is one a flag makes. -/
def Flag.Changes (flag : Flag) (update : AppOptions → AppOptions) : Prop :=
  match flag.action with
  | .switch set => update = set
  | .value read => ∃ text, read text = .ok update

/-- A flag with a value sets what its parser makes of some text. -/
theorem Flag.Changes.parsed {β : Type*} {f : Flag} {parse : String → Except String β}
    {set : β → AppOptions → AppOptions} {update : AppOptions → AppOptions} (h : f.Changes update)
    (haction : f.action = .value fun text => (parse text).map set) :
    ∃ text v, parse text = .ok v ∧ set v = update := by
  rw [Flag.Changes, haction] at h
  obtain ⟨text, hread⟩ := h
  exact ⟨text, map_eq_ok hread⟩

variable {α : Type*} {get : AppOptions → α} {flag : Flag}
  {read : String → Except String (AppOptions → AppOptions)}

theorem lastValue_cons (value : String) (rest : List String) {text : String} {f : Flag}
    (hf : Flag.ofText text = some f) {r : String → Except String (AppOptions → AppOptions)}
    (hr : f.action = .value r) :
    lastValue flag (text :: value :: rest) =
      if f = flag then some ((lastValue flag rest).getD value) else lastValue flag rest := by
  rw [lastValue, values, hf]
  simp only [hr]
  split
  · rw [List.getLast?_cons]
    rfl
  · rfl

/-- The loop has read all flags, and changed the options from the first to the second. -/
inductive Reads : AppOptions → List String → AppOptions → Prop
  | done (o : AppOptions) : Reads o [] o
  | switch {o o' : AppOptions} {text : String} {rest : List String} {f : Flag}
      {set : AppOptions → AppOptions} (hf : Flag.ofText text = some f)
      (hset : f.action = .switch set) (hrest : Reads (set o) rest o') : Reads o (text :: rest) o'
  | value {o o' : AppOptions} {text value : String} {rest : List String} {f : Flag}
      {read : String → Except String (AppOptions → AppOptions)} {update : AppOptions → AppOptions}
      (hf : Flag.ofText text = some f) (hread : f.action = .value read)
      (hupdate : read value = .ok update) (hrest : Reads (update o) rest o') :
      Reads o (text :: value :: rest) o'

theorem parseFlags_reads {flags : List String} {o o' : AppOptions}
    (h : parseFlags o flags = .ok o') : Reads o flags o' := by
  induction o, flags using parseFlags.induct with
  | case1 o =>
    obtain rfl := Except.ok.inj h
    exact .done o
  | case2 o text rest hf =>
    rw [parseFlags, hf] at h
    cases h
  | case3 o text rest f hf set hset ih =>
    rw [parseFlags, hf] at h
    simp only [hset] at h
    exact .switch hf hset (ih h)
  | case4 o text f hf r hr =>
    rw [parseFlags, hf] at h
    simp only [hr] at h
    cases h
  | case5 o text f hf r hr value rest what hwhat =>
    rw [parseFlags, hf] at h
    simp only [hr, hwhat] at h
    cases h
  | case6 o text f hf r hr value rest update hupdate ih =>
    rw [parseFlags, hf] at h
    simp only [hr, hupdate] at h
    exact .value hf hr hupdate (ih h)

theorem changes_switch {f : Flag} {set : AppOptions → AppOptions} (h : f.action = .switch set) :
    f.Changes set := by
  rw [Flag.Changes, h]

theorem changes_value {f : Flag} (h : f.action = .value read) {value : String}
    {update : AppOptions → AppOptions} (hupdate : read value = .ok update) : f.Changes update := by
  rw [Flag.Changes, h]
  exact ⟨value, hupdate⟩

/-- What all changes keep, the loop keeps. -/
theorem Reads.invariant {Inv : AppOptions → Prop}
    (hstep : ∀ (f : Flag) update, f.Changes update → ∀ o, Inv o → Inv (update o))
    {flags : List String} {o o' : AppOptions} (h : Reads o flags o') (ho : Inv o) : Inv o' := by
  induction h with
  | done o => exact ho
  | switch hf hset _ ih => exact ih (hstep _ _ (changes_switch hset) _ ho)
  | value hf hread hupdate _ ih => exact ih (hstep _ _ (changes_value hread hupdate) _ ho)

/-- What the last value of `flag` is read as is what the options hold, if other flags leave it. -/
theorem Reads.last (hread : flag.action = .value read)
    (hkeep : ∀ f, f ≠ flag → ∀ update, f.Changes update → ∀ o, get (update o) = get o)
    {flags : List String} {o o' : AppOptions} (h : Reads o flags o') :
    (lastValue flag flags = none → get o' = get o) ∧
      ∀ text, lastValue flag flags = some text →
        ∃ update o1, read text = .ok update ∧ get o' = get (update o1) := by
  induction h with
  | done o => exact ⟨fun _ => rfl, fun text htext => (by cases htext)⟩
  | @switch o o' text rest f set hf hset _ ih =>
    have hne : f ≠ flag := by
      rintro rfl
      cases hset.symm.trans hread
    have hsame : get (set o) = get o := hkeep f hne set (changes_switch hset) o
    have hlast : lastValue flag (text :: rest) = lastValue flag rest := by
      rw [lastValue, values, hf]
      simp only [hset]
      rfl
    rw [hlast]
    exact ⟨fun hl => (ih.1 hl).trans hsame, ih.2⟩
  | @value o o' text value rest f r update hf hr hupdate _ ih =>
    obtain ⟨hnone, hsome⟩ := ih
    rw [lastValue_cons value rest hf hr]
    by_cases hfl : f = flag
    · subst hfl
      obtain rfl := Action.value.inj (hr.symm.trans hread)
      rw [if_pos rfl]
      refine ⟨fun hl => (by cases hl), fun last hl => ?_⟩
      cases hrest : lastValue f rest with
      | none =>
        rw [hrest] at hl
        obtain rfl := Option.some.inj hl
        exact ⟨update, o, hupdate, hnone hrest⟩
      | some later =>
        rw [hrest] at hl
        obtain rfl := Option.some.inj hl
        exact hsome _ hrest
    · rw [if_neg hfl]
      have hsame : get (update o) = get o := hkeep f hfl update (changes_value hr hupdate) o
      exact ⟨fun hl => (hnone hl).trans hsame, hsome⟩

/-! ## The numeric options -/

/-- The number a numeric option stands for. -/
def Flag.number? : Flag → Option (AppOptions → Int)
  | .vid => some fun o => o.usb.vendorId.toNat
  | .pid => some fun o => o.usb.productId.toNat
  | .interface => some fun o => o.usb.interfaceNumber
  | .altSetting => some fun o => o.usb.alternateSetting
  | .inEp => some fun o => o.usb.inputEndpoint.toNat
  | .outEp => some fun o => o.usb.outputEndpoint.toNat
  | .reportSize => some fun o => o.usb.reportSize
  | .timeoutMs => some fun o => o.usb.timeoutMs.toNat
  | .writeRepeat => some fun o => o.writeRepeat
  | .writeIntervalMs => some fun o => o.writeIntervalMs
  | .midiChannel => some fun o => o.midiBaseChannel.toNat + 1
  | .inputDeadzone => some fun o => o.inputDeadzone.toNat
  | _ => none

/-- The numbers an option has room for, where the parser does not look. -/
def Flag.Fits (flag : Flag) (v : Int) : Prop :=
  match flag with
  | .vid | .pid => 0 ≤ v ∧ v ≤ 0xFFFF
  | .inEp | .outEp => 0 ≤ v ∧ v ≤ 0xFF
  | .timeoutMs => 0 ≤ v
  | _ => True

/-- A flag leaves the numbers of all others. -/
theorem number_keeps {f : Flag} {number : AppOptions → Int} (hnumber : flag.number? = some number)
    (hne : f ≠ flag) {update : AppOptions → AppOptions} (h : f.Changes update) (o : AppOptions) :
    number (update o) = number o := by
  cases f <;>
    first
    | (obtain ⟨text, v, -, rfl⟩ := h.parsed rfl
       cases flag <;> cases hnumber <;> first | rfl | exact absurd rfl hne)
    | (obtain rfl := h
       cases flag <;> cases hnumber <;> rfl)

/-- A text is a numeral for what is stored exactly if it is one that fits. -/
theorem denotes_stored {base : Nat} (hbase : base ≤ 36) {text : List Char} {m : Numeral}
    (hscan : scan base text = some m) {stored : Int} {Fits : Int → Prop}
    (hiff : m.value = stored ↔ Fits m.value) :
    Denotes base text stored ↔ ∃ v, Denotes base text v ∧ Fits v := by
  simp only [denotes_scan hbase hscan]
  constructor
  · rintro ⟨hrest, hvalue⟩
    exact ⟨m.value, ⟨hrest, rfl⟩, hiff.1 hvalue⟩
  · rintro ⟨v, ⟨hrest, rfl⟩, hfits⟩
    exact ⟨hrest, hiff.2 hfits⟩

theorem parseI32_ok {text : String} {n : Int} (h : parseI32 text = .ok n) :
    ∃ m, scan 0 text.toList = some m ∧ m.value = n ∧ -0x80000000 ≤ n ∧ n ≤ 0x7FFFFFFF := stoi_ok h

theorem toNat_byte (n : Int) : ((UInt8.ofInt n).toNat : Int) = n % 0x100 := by
  rw [UInt8.ofInt, UInt8.toNat_ofNat']
  omega

theorem toNat_word (n : Int) : ((UInt32.ofInt n).toNat : Int) = n % 0x100000000 := by
  rw [UInt32.ofInt, UInt32.toNat_ofNat']
  omega

/-- What a numeric option stores is what its value says exactly if that fits. -/
theorem number_read {number : AppOptions → Int} (hnumber : flag.number? = some number)
    (hread : flag.action = .value read) {text : String} {update : AppOptions → AppOptions}
    (h : read text = .ok update) (o : AppOptions) :
    Denotes 0 text.toList (number (update o)) ↔
      ∃ v, Denotes 0 text.toList v ∧ flag.Fits v := by
  cases flag <;> cases hnumber <;> cases hread <;> obtain ⟨v, hv, rfl⟩ := map_eq_ok h
  case vid | pid =>
    obtain ⟨m, hscan, hvalue⟩ := parseU16_ok hv
    refine denotes_stored (by decide) hscan ?_
    simp only [Flag.Fits]
    omega
  case inEp | outEp =>
    obtain ⟨m, hscan, hvalue⟩ := parseU8_ok hv
    refine denotes_stored (by decide) hscan ?_
    simp only [Flag.Fits]
    omega
  case interface | altSetting | reportSize =>
    obtain ⟨m, hscan, hvalue, -⟩ := parseI32_ok hv
    exact denotes_stored (by decide) hscan (iff_of_true hvalue trivial)
  case writeRepeat | writeIntervalMs =>
    obtain ⟨m, hscan, hvalue, -⟩ := parseI32_ok (parseChecked_ok hv).1
    exact denotes_stored (by decide) hscan (iff_of_true hvalue trivial)
  case timeoutMs =>
    obtain ⟨m, hscan, hvalue, hlow, hhigh⟩ := parseI32_ok hv
    refine denotes_stored (by decide) hscan ?_
    show m.value = ((UInt32.ofInt v).toNat : Int) ↔ 0 ≤ m.value
    rw [toNat_word]
    omega
  case midiChannel =>
    obtain ⟨hparse, hvalid⟩ := parseChecked_ok hv
    obtain ⟨m, hscan, hvalue, -⟩ := parseI32_ok hparse
    refine denotes_stored (by decide) hscan (iff_of_true ?_ trivial)
    have hrange := of_decide_eq_true hvalid
    show m.value = ((UInt8.ofInt (v - 1)).toNat : Int) + 1
    rw [toNat_byte]
    omega
  case inputDeadzone =>
    obtain ⟨hparse, hvalid⟩ := parseChecked_ok hv
    obtain ⟨m, hscan, hvalue, -⟩ := parseI32_ok hparse
    refine denotes_stored (by decide) hscan (iff_of_true ?_ trivial)
    have hrange := of_decide_eq_true hvalid
    show m.value = ((UInt8.ofInt v).toNat : Int)
    rw [toNat_byte]
    omega

/-! ## The payload -/

theorem value_le (m : Numeral) : m.value ≤ m.magnitude := by
  unfold Numeral.value
  split <;> omega

/-- A byte that is stored is what its token says exactly if that is not negative. -/
theorem token_read {token : List Char} {x : UInt64} (h : stoul 16 token = .ok x)
    (hbyte : ¬ x > 0xFF) :
    Denotes 16 token x.toUInt8.toNat ↔ ∃ v, Denotes 16 token v ∧ 0 ≤ v := by
  obtain ⟨m, hscan, hfits, hvalue⟩ := stoul_ok h
  have hle := value_le m
  have hsmall : x.toNat ≤ 0xFF := UInt64.le_iff_toNat_le.1 (UInt64.not_lt.1 hbyte)
  refine denotes_stored (by decide) hscan ?_
  rw [UInt64.toNat_toUInt8]
  omega

theorem parseHexTokens_read {ts : List (List Char)} {bytes : List UInt8}
    (h : parseHexTokens ts = .ok bytes) :
    List.Forall₂ (fun token (b : UInt8) => Denotes 16 token b.toNat) ts bytes ↔
      ∀ token ∈ ts, ∃ v, Denotes 16 token v ∧ 0 ≤ v := by
  induction ts generalizing bytes with
  | nil =>
    obtain rfl := Except.ok.inj h
    exact iff_of_true .nil fun token htoken => (by cases htoken)
  | cons token ts ih =>
    rw [parseHexTokens] at h
    cases hx : stoul 16 token with
    | error what =>
      rw [hx] at h
      cases h
    | ok x =>
      rw [hx] at h
      simp only at h
      split at h
      · cases h
      · rename_i hbyte
        obtain ⟨rest, hrest, rfl⟩ := map_eq_ok h
        rw [List.forall₂_cons, List.forall_mem_cons, token_read hx hbyte, ih hrest]

theorem parseHexBytes_ok {text : String} {bytes : List UInt8} (h : parseHexBytes text = .ok bytes) :
    parseHexTokens (tokens text.toList) = .ok bytes := by
  unfold parseHexBytes at h
  cases hread : parseHexTokens (tokens text.toList) with
  | error what =>
    rw [hread] at h
    cases h
  | ok read =>
    rw [hread] at h
    cases read with
    | nil => cases h
    | cons b rest => exact h

theorem payload_keeps {f : Flag} (hne : f ≠ .writeHex) {update : AppOptions → AppOptions}
    (h : f.Changes update) (o : AppOptions) : (update o).writePayload = o.writePayload := by
  cases f <;>
    first
    | exact absurd rfl hne
    | (obtain ⟨text, v, -, rfl⟩ := h.parsed rfl
       rfl)
    | (obtain rfl := h
       rfl)

/-! ## The whole command line -/

/-- Every numeric option that is given holds the number its value denotes as a whole, and the payload
the numbers of its tokens. -/
structure Exact (o : AppOptions) (flags : List String) : Prop where
  numbers : ∀ (flag : Flag) number, flag.number? = some number → ∀ text,
    lastValue flag flags = some text → Denotes 0 text.toList (number o)
  payload : ∀ text, lastValue .writeHex flags = some text →
    List.Forall₂ (fun token (b : UInt8) => Denotes 16 token b.toNat) (tokens text.toList)
      o.writePayload

/-- The values that count are numerals as a whole, and fit. -/
structure WellFormed (flags : List String) : Prop where
  numbers : ∀ flag : Flag, flag.number? ≠ none → ∀ text, lastValue flag flags = some text →
    ∃ v, Denotes 0 text.toList v ∧ flag.Fits v
  payload : ∀ text, lastValue .writeHex flags = some text →
    ∀ token ∈ tokens text.toList, ∃ v, Denotes 16 token v ∧ 0 ≤ v

instance (flag : Flag) (v : Int) : Decidable (flag.Fits v) := by
  unfold Flag.Fits
  split <;> infer_instance

/-- The text is a numeral as a whole, with a value that `fits`. -/
def isWhole (base : Nat) (fits : Int → Bool) (text : List Char) : Bool :=
  (scan base text).any fun m => m.rest.isEmpty && fits m.value

theorem isWhole_iff {base : Nat} (hbase : base ≤ 36) {fits : Int → Bool} {text : List Char} :
    isWhole base fits text = true ↔ ∃ v, Denotes base text v ∧ fits v = true := by
  simp only [isWhole, denotes_iff hbase]
  cases scan base text with
  | none => simp
  | some m => simp

/-- The check no parser makes. -/
def checkValues (flags : List String) : Bool :=
  (Flag.all.all fun entry => entry.2.number?.isNone ||
    (lastValue entry.2 flags).all fun text => isWhole 0 (entry.2.Fits ·) text.toList) &&
  (lastValue .writeHex flags).all fun text =>
    (tokens text.toList).all (isWhole 16 fun v => decide (0 ≤ v))

theorem flag_mem (flag : Flag) : ∃ entry ∈ Flag.all, entry.2 = flag := by
  cases flag <;> decide

theorem wellFormed_iff (flags : List String) : WellFormed flags ↔ checkValues flags = true := by
  rw [checkValues, Bool.and_eq_true, List.all_eq_true, Option.all_eq_true]
  constructor
  · rintro ⟨hnumbers, hpayload⟩
    refine ⟨fun entry _ => ?_, fun text htext => ?_⟩
    · rw [Bool.or_eq_true, Option.isNone_iff_eq_none, Option.all_eq_true]
      refine or_iff_not_imp_left.2 fun hsome text htext => ?_
      obtain ⟨v, hv, hfits⟩ := hnumbers entry.2 hsome text htext
      exact (isWhole_iff (by decide)).2 ⟨v, hv, decide_eq_true hfits⟩
    · rw [List.all_eq_true]
      intro token htoken
      obtain ⟨v, hv, hpos⟩ := hpayload text htext token htoken
      exact (isWhole_iff (by decide)).2 ⟨v, hv, decide_eq_true hpos⟩
  · rintro ⟨hnumbers, hpayload⟩
    refine ⟨fun flag hsome text htext => ?_, fun text htext token htoken => ?_⟩
    · obtain ⟨entry, hmem, rfl⟩ := flag_mem flag
      have hentry := hnumbers entry hmem
      rw [Bool.or_eq_true, Option.isNone_iff_eq_none, Option.all_eq_true] at hentry
      obtain ⟨v, hv, hfits⟩ := (isWhole_iff (by decide)).1 (hentry.resolve_left hsome text htext)
      exact ⟨v, hv, of_decide_eq_true hfits⟩
    · have htokens := hpayload text htext
      rw [List.all_eq_true] at htokens
      obtain ⟨v, hv, hpos⟩ := (isWhole_iff (by decide)).1 (htokens token htoken)
      exact ⟨v, hv, of_decide_eq_true hpos⟩

instance (flags : List String) : Decidable (WellFormed flags) :=
  decidable_of_iff _ (wellFormed_iff flags).symm

theorem parseArgs_ok {args : List String} {o : AppOptions} (h : parseArgs args = .ok o) :
    ∃ mode, parseFlags { mode := mode } (args.drop 2) = .ok o ∧ checkOptions o = .ok o := by
  unfold parseArgs at h
  split at h
  · split at h
    · cases h
    · rename_i mode _
      split at h
      · cases h
      · rename_i flags _ _ o' hflags
        have hchecked : o' = o := by
          unfold checkOptions at h
          split at h
          · cases h
          · split at h
            · cases h
            · exact Except.ok.inj h
        subst hchecked
        exact ⟨mode, hflags, h⟩
  · cases h

/-! ## What is accepted -/

/-- The ranges the options are checked for. -/
structure Valid (o : AppOptions) : Prop where
  writeRepeat : 0 < o.writeRepeat
  writeIntervalMs : 0 ≤ o.writeIntervalMs
  midiBaseChannel : o.midiBaseChannel.toNat < 16
  inputDeadzone : o.inputDeadzone.toNat ≤ 127

theorem defaults_valid (mode : Mode) : Valid { mode := mode } := by
  constructor
  all_goals cases mode <;> decide

theorem changes_valid {f : Flag} {update : AppOptions → AppOptions} (h : f.Changes update)
    (o : AppOptions) (ho : Valid o) : Valid (update o) := by
  obtain ⟨hrepeat, hinterval, hchannel, hdeadzone⟩ := ho
  cases f
  case writeRepeat =>
    obtain ⟨text, v, hv, rfl⟩ := h.parsed rfl
    exact ⟨of_decide_eq_true (parseChecked_ok hv).2, hinterval, hchannel, hdeadzone⟩
  case writeIntervalMs =>
    obtain ⟨text, v, hv, rfl⟩ := h.parsed rfl
    exact ⟨hrepeat, of_decide_eq_true (parseChecked_ok hv).2, hchannel, hdeadzone⟩
  case midiChannel =>
    obtain ⟨text, v, hv, rfl⟩ := h.parsed rfl
    have hrange := of_decide_eq_true (parseChecked_ok hv).2
    have hbyte := toNat_byte (v - 1)
    refine ⟨hrepeat, hinterval, ?_, hdeadzone⟩
    show (UInt8.ofInt (v - 1)).toNat < 16
    omega
  case inputDeadzone =>
    obtain ⟨text, v, hv, rfl⟩ := h.parsed rfl
    have hrange := of_decide_eq_true (parseChecked_ok hv).2
    have hbyte := toNat_byte v
    refine ⟨hrepeat, hinterval, hchannel, ?_⟩
    show (UInt8.ofInt v).toNat ≤ 127
    omega
  case stream | inputDebug | inputDebugButtons | rawSysex =>
    obtain rfl := h
    exact ⟨hrepeat, hinterval, hchannel, hdeadzone⟩
  all_goals
    obtain ⟨text, v, -, rfl⟩ := h.parsed rfl
    exact ⟨hrepeat, hinterval, hchannel, hdeadzone⟩

/-- Accepted options are in range, and those of a bridge name an input endpoint and a report size. -/
theorem parseArgs_valid {args : List String} {o : AppOptions} (h : parseArgs args = .ok o) :
    Valid o ∧ o.usb.vendorId ≠ 0 ∧ o.usb.productId ≠ 0 ∧
      (o.mode = .bridge → o.usb.inputEndpoint ≠ 0 ∧ 0 < o.usb.reportSize) := by
  obtain ⟨mode, hflags, hchecked⟩ := parseArgs_ok h
  refine ⟨(parseFlags_reads hflags).invariant (fun f update => changes_valid)
    (defaults_valid mode), ?_⟩
  unfold checkOptions at hchecked
  split at hchecked
  · cases hchecked
  · rename_i hids
    split at hchecked
    · cases hchecked
    · rename_i hbridge
      rw [not_or] at hids
      refine ⟨hids.1, hids.2, fun hmode => ?_⟩
      have hnot := not_and.1 hbridge hmode
      rw [not_or, Int.not_le] at hnot
      exact hnot

/-- Numeric flags and `--write-hex` take a value. -/
theorem number_action {number : AppOptions → Int} (h : flag.number? = some number) :
    ∃ read, flag.action = .value read := by
  cases flag <;> first | exact ⟨_, rfl⟩ | cases h

/-- **Numeric arguments**: on an accepted command line they are taken exactly if and only if each
value that counts is a numeral as a whole and fits its option. -/
theorem numbers_iff {args : List String} {o : AppOptions} (h : parseArgs args = .ok o) :
    Exact o (args.drop 2) ↔ WellFormed (args.drop 2) := by
  obtain ⟨mode, hflags, -⟩ := parseArgs_ok h
  have hreads := parseFlags_reads hflags
  have hnumber : ∀ (flag : Flag) number, flag.number? = some number → ∀ text,
      lastValue flag (args.drop 2) = some text →
      (Denotes 0 text.toList (number o) ↔ ∃ v, Denotes 0 text.toList v ∧ flag.Fits v) := by
    intro flag number hnumber text htext
    obtain ⟨read, hread⟩ := number_action hnumber
    obtain ⟨update, o1, hupdate, hstored⟩ := (hreads.last hread
      fun f hne update hchange => number_keeps hnumber hne hchange).2 text htext
    rw [hstored]
    exact number_read hnumber hread hupdate o1
  have hpayload : ∀ text, lastValue .writeHex (args.drop 2) = some text →
      (List.Forall₂ (fun token (b : UInt8) => Denotes 16 token b.toNat) (tokens text.toList)
          o.writePayload ↔
        ∀ token ∈ tokens text.toList, ∃ v, Denotes 16 token v ∧ 0 ≤ v) := by
    intro text htext
    have haction : Flag.writeHex.action = .value fun text =>
        (parseHexBytes text).map fun bytes o => { o with writePayload := bytes } := rfl
    obtain ⟨update, o1, hupdate, hstored⟩ := (hreads.last haction
      fun f hne update hchange => payload_keeps hne hchange).2 text htext
    obtain ⟨bytes, hbytes, rfl⟩ := map_eq_ok hupdate
    rw [hstored]
    exact parseHexTokens_read (parseHexBytes_ok hbytes)
  constructor
  · rintro ⟨hnumbers, hbytes⟩
    refine ⟨fun flag hsome text htext => ?_,
      fun text htext => (hpayload text htext).1 (hbytes text htext)⟩
    obtain ⟨number, hnum⟩ := Option.ne_none_iff_exists'.1 hsome
    exact (hnumber flag number hnum text htext).1 (hnumbers flag number hnum text htext)
  · rintro ⟨hnumbers, hbytes⟩
    refine ⟨fun flag number hnum text htext => ?_,
      fun text htext => (hpayload text htext).2 (hbytes text htext)⟩
    exact (hnumber flag number hnum text htext).2
      (hnumbers flag (by rw [hnum]; exact Option.some_ne_none _) text htext)

/-- The command line of a bridge, and a payload. -/
theorem numbers_iff_bridge :
    ∃ o, parseArgs ["s4_mk1_usb2midi", "bridge", "--vid", "0x17cc", "--pid", "0xbaff", "--in-ep",
        "0x84", "--report-size", "512", "--midi-channel", "3", "--write-hex", "00 7f ff"] = .ok o ∧
      o.usb.vendorId = 0x17CC ∧ o.midiBaseChannel = 2 ∧ o.writePayload = [0x00, 0x7F, 0xFF] ∧
      Exact o ["--vid", "0x17cc", "--pid", "0xbaff", "--in-ep", "0x84", "--report-size", "512",
        "--midi-channel", "3", "--write-hex", "00 7f ff"] := by
  have hparse : parseArgs ["s4_mk1_usb2midi", "bridge", "--vid", "0x17cc", "--pid", "0xbaff",
      "--in-ep", "0x84", "--report-size", "512", "--midi-channel", "3", "--write-hex", "00 7f ff"] =
      .ok { mode := .bridge, midiBaseChannel := 2, writePayload := [0x00, 0x7F, 0xFF], usb :=
        { vendorId := 0x17CC, productId := 0xBAFF, inputEndpoint := 0x84, reportSize := 512 } } := by
    decide +kernel
  exact ⟨_, hparse, rfl, rfl, rfl, (numbers_iff hparse).2 (by decide +kernel)⟩

/-- The vendor id 0x117cc is stored as 0x17cc. -/
theorem not_numbers_wide :
    ¬ ∀ (args : List String) (o : AppOptions), parseArgs args = .ok o → Exact o (args.drop 2) := by
  intro h
  have hparse : parseArgs ["s4_mk1_usb2midi", "probe", "--vid", "0x117cc", "--pid", "0xbaff"] =
      .ok { usb := { vendorId := 0x17CC, productId := 0xBAFF } } := by decide +kernel
  have hvid := (h _ _ hparse).numbers .vid _ rfl "0x117cc" (by decide +kernel)
  have hscan : scan 0 "0x117cc".toList = some ⟨false, 0x117CC, []⟩ := by decide +kernel
  have hvalue := ((denotes_scan (by decide) hscan).1 hvid).2
  exact absurd hvalue (by decide)

end Args
