import S4Bridge.Lib.Lists
import S4Bridge.Args.HexDump
import S4Bridge.Args.Proof.Numbers

/-!
# Printed bytes can be typed

The text `hex_dump` prints is read back by `parse_hex_bytes`: the printed words are those of the
bytes (`hexDump_cons`), the reader takes the text apart into the same words (`tokens_words`), and
`stoul` reads the word of a byte as the byte (`stoul_hexWord`).
-/

namespace Args

open Formatted Numerals

/-- The two digits a byte is printed as. -/
def hexWord (byte : UInt8) : List Char := (Nat.toDigits 16 byte.toNat).leftpad 2 '0'

/-! ## The printed text -/

theorem hexDumpLoop_text {stream : Stream} (hbase : stream.base = 16) (hfill : stream.fill = '0')
    (hwidth : stream.width = 0) {index : Nat} (hindex : index ≠ 0) (bytes : List UInt8) :
    (hexDumpLoop stream index bytes).text =
      stream.text ++ bytes.flatMap fun byte => ' ' :: hexWord byte := by
  induction bytes generalizing stream index with
  | nil => simp [hexDumpLoop]
  | cons byte rest ih =>
    -- the fill character and the base stay, the width is used up by the byte
    have hnext : index + 1 ≠ 0 := Nat.succ_ne_zero index
    rw [hexDumpLoop, if_pos hindex, ih (by simp [hbase]) (by simp [hfill]) (by simp) hnext]
    simp [hbase, hfill, hwidth, hexWord]

theorem hexDump_cons (byte : UInt8) (rest : List UInt8) :
    (hexDump (byte :: rest)).toList = hexWord byte ++ rest.flatMap fun b => ' ' :: hexWord b := by
  rw [hexDump, hexDumpLoop]
  simp only [ne_eq, not_true_eq_false, if_false, String.toList_ofList]
  rw [hexDumpLoop_text rfl rfl rfl (by decide)]
  rfl

/-! ## The text read -/

theorem hexWord_scan (byte : UInt8) : scan 16 (hexWord byte) = some ⟨false, byte.toNat, []⟩ :=
  scan_leftpad (by decide) (by decide) 2 byte.toNat

theorem hexWord_digits (byte : UInt8) : Digits 16 (hexWord byte) :=
  digits_leftpad (by decide) 2 (toDigits_read (by decide) (by decide) byte.toNat).1

theorem isSpace_hexWord {byte : UInt8} {c : Char} (hc : c ∈ hexWord byte) : isSpace c = false := by
  rw [Bool.eq_false_iff]
  intro hspace
  have hdigit := (hexWord_digits byte).2 c hc
  rw [digitValue_of_isSpace hspace] at hdigit
  omega

theorem stoul_hexWord (byte : UInt8) : stoul 16 (hexWord byte) = .ok byte.toUInt64 := by
  have hbyte := byte.toNat_lt
  rw [stoul, hexWord_scan]
  simp only
  rw [if_neg (by omega), if_neg (by decide), UInt64.ofNat_uInt8ToNat]

theorem tokens_hexDump {bytes : List UInt8} (h : bytes ≠ []) :
    tokens (hexDump bytes).toList = bytes.map hexWord := by
  obtain ⟨byte, rest, rfl⟩ := List.exists_cons_of_ne_nil h
  have hwords : ∀ w ∈ hexWord byte :: rest.map hexWord, ∃ b, w = hexWord b := by
    intro w hw
    obtain ⟨b, -, hb⟩ := List.mem_map.1 (List.map_cons ▸ hw : w ∈ (byte :: rest).map hexWord)
    exact ⟨b, hb.symm⟩
  have hsplit : (hexDump (byte :: rest)).toList.splitOnP isSpace =
      hexWord byte :: rest.map hexWord := by
    rw [hexDump_cons, ← List.flatMap_map hexWord fun w => ' ' :: w]
    refine Lists.splitOnP_words (by decide) fun w hw c hc => ?_
    obtain ⟨b, rfl⟩ := hwords w hw
    exact isSpace_hexWord hc
  rw [tokens, hsplit, List.map_cons, List.filter_eq_self]
  intro w hw
  obtain ⟨b, rfl⟩ := hwords w hw
  simpa using (hexWord_digits b).1

theorem parseHexTokens_hexWord (bytes : List UInt8) :
    parseHexTokens (bytes.map hexWord) = .ok bytes := by
  induction bytes with
  | nil => rfl
  | cons byte rest ih =>
    have hfits : ¬byte.toUInt64 > 0xFF := by
      have hbyte := byte.toNat_lt
      have hmax : (0xFF : UInt64).toNat = 0xFF := rfl
      rw [gt_iff_lt, UInt64.lt_iff_toNat_lt, UInt8.toNat_toUInt64, hmax]
      omega
    rw [List.map_cons, parseHexTokens, stoul_hexWord]
    simp only
    rw [if_neg hfits, ih, UInt8.toUInt8_toUInt64]
    rfl

theorem parseHexBytes_hexDump {bytes : List UInt8} (h : bytes ≠ []) :
    parseHexBytes (hexDump bytes) = .ok bytes := by
  obtain ⟨byte, rest, rfl⟩ := List.exists_cons_of_ne_nil h
  rw [parseHexBytes, tokens_hexDump h, parseHexTokens_hexWord]

theorem parseHexBytes_ne_nil {text : String} {bytes : List UInt8}
    (h : parseHexBytes text = .ok bytes) : bytes ≠ [] := by
  rintro rfl
  rw [parseHexBytes, parseHexBytes_ok h] at h
  cases h

/-! ## Replay -/

/-- **Printed bytes can be typed**: what `hex_dump` prints of some bytes, `--write-hex` reads as the
bytes; and the bytes read from any text can be printed and typed again. -/
theorem hexDump_replayed :
    (∀ bytes, bytes ≠ [] → parseHexBytes (hexDump bytes) = .ok bytes ∧
      ∀ o rest, parseFlags o ("--write-hex" :: hexDump bytes :: rest) =
        parseFlags { o with writePayload := bytes } rest) ∧
    ∀ text bytes, parseHexBytes text = .ok bytes → parseHexBytes (hexDump bytes) = .ok bytes := by
  refine ⟨fun bytes hne => ⟨parseHexBytes_hexDump hne, fun o rest => ?_⟩, fun text bytes h =>
    parseHexBytes_hexDump (parseHexBytes_ne_nil h)⟩
  have hflag : Flag.ofText "--write-hex" = some .writeHex := by decide
  rw [parseFlags, hflag]
  simp only [Flag.action, parseHexBytes_hexDump hne]
  rfl

/-- A packet with small bytes, and a payload typed another way. -/
theorem hexDump_replayed_packet :
    parseHexBytes (hexDump [0x00, 0x0A, 0xFF]) = .ok [0x00, 0x0A, 0xFF] ∧
      parseHexBytes "0x1 +7F  a" = .ok [0x01, 0x7F, 0x0A] ∧
      parseHexBytes (hexDump [0x01, 0x7F, 0x0A]) = .ok [0x01, 0x7F, 0x0A] := by
  have htyped : parseHexBytes "0x1 +7F  a" = .ok [0x01, 0x7F, 0x0A] := by decide +kernel
  exact ⟨(hexDump_replayed.1 _ (by decide)).1, htyped, hexDump_replayed.2 _ _ htyped⟩

end Args
