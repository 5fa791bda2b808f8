import RustNet.Foundations.Offsets
import RustNet.Foundations.Text
import RustNet.Network.Tls.HostName

/-!
# Names that lsof prints

`lsof` prints a process name byte by byte, and writes a byte that is a space or not printable as
`\x` and two hexadecimal digits. `decode_lsof_string` makes a character of each of these, and not
a byte of a character: a name comes back as it was if it is of ASCII, and in any other each
character that is not becomes two to four.

## Main definitions

* `decodeLsofString`, and `lsofEscape`, what it is to undo.

## Main results

* `decodeLsofString_lsofEscape`: what comes back, for every name without a backslash;
* `decodeLsofString_iff`: it is the name exactly if this is of ASCII.
-/

namespace RustNet

/-! ## Decoding -/

/-- The character that the two digits behind a `\x` stand for. -/
def unhex (hexDigits : List Char) : Option Char :=
  if Offsets.extent Char.utf8Size hexDigits = 2 then
    (Text.fromStrRadix 16 8 hexDigits).map Char.ofNat
  else none

/-- The loop of `decode_lsof_string`: two digits behind `\x` become one character. -/
def decodeLsofChars : List Char → List Char
  | [] => []
  | ch :: rest =>
    if ch = '\\' ∧ rest.head? = some 'x' then
      let hexDigits := rest.tail.take 2
      let decoded :=
        match unhex hexDigits with
        | some char => [char]
        -- what cannot be decoded stays, and is not looked at again
        | none => '\\' :: 'x' :: hexDigits
      decoded ++ decodeLsofChars (rest.tail.drop 2)
    else ch :: decodeLsofChars rest
termination_by input => input.length
decreasing_by
  · simp only [List.length_drop, List.length_tail, List.length_cons]
    omega
  · simp

/-- `decode_lsof_string` on a whole name. -/
def decodeLsofString (input : String) : String := String.ofList (decodeLsofChars input.toList)

/-! ## Escaping -/

/-- The sixteen digits, in lower case or in upper case. -/
structure HexAlphabet where
  digit : ℕ → Char
  toDigit_digit : ∀ d < 16, Text.toDigit 16 (digit d) = some d

/-- The digits in lower case, as `lsof` prints them. -/
def HexAlphabet.lower : HexAlphabet := ⟨Nat.digitChar, by decide⟩

/-- How `lsof` writes a byte. -/
def HexAlphabet.escapeByte (h : HexAlphabet) (b : UInt8) : List Char :=
  if 0x20 < b ∧ b < 0x7f then [Char.ofNat b.toNat]
  else ['\\', 'x', h.digit (b.toNat / 16), h.digit (b.toNat % 16)]

/-- How it writes a name. -/
def lsofEscape (h : HexAlphabet) (name : String) : String :=
  String.ofList ((nameBytes name).flatMap h.escapeByte)

/-! ## Bytes of characters -/

theorem nameBytes_eq_flatMap (name : String) :
    nameBytes name = name.toList.flatMap String.utf8EncodeChar := by
  have hofList : ∀ chars : List Char,
      nameBytes (String.ofList chars) = chars.flatMap String.utf8EncodeChar := by
    intro chars
    show chars.utf8Encode.data.toList = _
    rw [List.utf8Encode, List.toList_data_toByteArray]
  have hname := hofList name.toList
  rwa [String.ofList_toList] at hname

/-- A character of more than one byte has no byte of ASCII. -/
theorem eq_of_mem_utf8EncodeChar {c : Char} {b : UInt8} (hb : b < 0x80)
    (h : b ∈ String.utf8EncodeChar c) : c = Char.ofNat b.toNat := by
  have hlt : b.toNat < 128 := UInt8.lt_iff_toNat_lt.mp hb
  unfold String.utf8EncodeChar at h
  dsimp only at h
  split_ifs at h with hone htwo hthree
  · have hval : b.toNat = c.toNat := by
      rw [List.mem_singleton.mp h, UInt8.toNat_ofNat']
      exact Nat.mod_eq_of_lt (by omega)
    rw [hval, Char.ofNat_toNat]
  all_goals
    -- the first byte is at least `0xc0`, and each of the others at least `0x80`
    simp only [List.mem_cons, List.not_mem_nil, or_false] at h
    rcases h with rfl | rfl | rfl | rfl <;> simp only [UInt8.toNat_ofNat'] at hlt <;> omega

/-- No byte of a name is a backslash if none of its characters is. -/
theorem backslash_notMem_nameBytes {name : String} (hname : '\\' ∉ name.toList) :
    0x5c ∉ nameBytes name := by
  intro h
  rw [nameBytes_eq_flatMap, List.mem_flatMap] at h
  obtain ⟨c, hc, hb⟩ := h
  obtain rfl := eq_of_mem_utf8EncodeChar (by decide) hb
  exact hname hc

theorem length_nameBytes (name : String) :
    (nameBytes name).length = Offsets.extent Char.utf8Size name.toList := by
  rw [nameBytes_eq_flatMap, List.length_flatMap, Offsets.extent]
  simp

/-! ## Round trip -/

section RoundTrip

variable (h : HexAlphabet) {b : UInt8} {rest : List Char}

theorem HexAlphabet.utf8Size_digit {d : ℕ} (hd : d < 16) : (h.digit d).utf8Size = 1 :=
  Char.utf8Size_eq_one_iff.mpr (UInt32.le_iff_toNat_le.mpr
    (Nat.le_of_lt_succ (Text.toDigit_ascii (h.toDigit_digit d hd))))

theorem HexAlphabet.digit_ne_plus {d : ℕ} (hd : d < 16) : h.digit d ≠ '+' := by
  intro hplus
  have hdigit := h.toDigit_digit d hd
  rw [hplus] at hdigit
  cases hdigit

/-- The two digits of a byte stand for its value as a character. -/
theorem unhex_digits (b : UInt8) :
    unhex [h.digit (b.toNat / 16), h.digit (b.toNat % 16)] = some (Char.ofNat b.toNat) := by
  have hb : b.toNat < 256 := b.toNat_lt
  have hhigh : b.toNat / 16 < 16 := by omega
  have hlow : b.toNat % 16 < 16 := by omega
  -- the two digits are the number, and no sign is taken for one
  have hfold : [h.digit (b.toNat / 16), h.digit (b.toNat % 16)].foldlM (Text.pushDigit 16) 0 =
      some b.toNat := by
    simp only [List.foldlM_cons, List.foldlM_nil, Text.pushDigit, h.toDigit_digit _ hhigh,
      h.toDigit_digit _ hlow]
    show some ((0 * 16 + b.toNat / 16) * 16 + b.toNat % 16) = some b.toNat
    exact congrArg some (by omega)
  have hread : Text.fromStrRadix 16 8 [h.digit (b.toNat / 16), h.digit (b.toNat % 16)] =
      some b.toNat := by
    apply Text.fromStrRadix_of_foldlM (List.cons_ne_nil _ _) _ hfold hb
    intro c hc
    simp only [List.mem_cons, List.not_mem_nil, or_false] at hc
    rcases hc with rfl | rfl
    · exact h.digit_ne_plus hhigh
    · exact h.digit_ne_plus hlow
  rw [unhex, if_pos, hread, Option.map_some]
  simp [Offsets.extent_cons, h.utf8Size_digit hhigh, h.utf8Size_digit hlow]

/-- A byte comes back as one character. -/
theorem decodeLsofChars_escapeByte (hb : b ≠ 0x5c) :
    decodeLsofChars (h.escapeByte b ++ rest) = Char.ofNat b.toNat :: decodeLsofChars rest := by
  unfold HexAlphabet.escapeByte
  split_ifs with hprintable
  -- a printable byte is escaped only if it is the backslash
  · have hne : Char.ofNat b.toNat ≠ '\\' := by
      intro heq
      have hval := congrArg Char.toNat heq
      have hlt : b.toNat < 0x7f := UInt8.lt_iff_toNat_lt.mp hprintable.2
      rw [Text.toNat_charOfNat, if_pos (Or.inl (by omega))] at hval
      exact hb (UInt8.toNat_inj.mp hval)
    rw [List.singleton_append, decodeLsofChars, if_neg fun hslash => hne hslash.1]
  · show decodeLsofChars ('\\' :: 'x' :: h.digit (b.toNat / 16) :: h.digit (b.toNat % 16) :: rest) = _
    rw [decodeLsofChars, if_pos ⟨rfl, rfl⟩]
    dsimp only [List.tail_cons, List.take_succ_cons, List.take_zero, List.drop_succ_cons,
      List.drop_zero]
    rw [unhex_digits]
    rfl

theorem decodeLsofChars_flatMap {bytes : List UInt8} (hbytes : 0x5c ∉ bytes) :
    decodeLsofChars (bytes.flatMap h.escapeByte) = bytes.map fun b => Char.ofNat b.toNat := by
  induction bytes with
  | nil => rw [List.flatMap_nil, decodeLsofChars, List.map_nil]
  | cons b bytes ih =>
    obtain ⟨hb, hbytes⟩ := not_or.mp (fun h => hbytes (List.mem_cons.mpr h))
    rw [List.flatMap_cons, decodeLsofChars_escapeByte h (Ne.symm hb), ih hbytes, List.map_cons]

/-- Each byte of the name comes back as a character. -/
theorem decodeLsofString_lsofEscape {name : String} (hname : '\\' ∉ name.toList) :
    decodeLsofString (lsofEscape h name) = asciiText (nameBytes name) := by
  rw [decodeLsofString, lsofEscape, String.toList_ofList,
    decodeLsofChars_flatMap h (backslash_notMem_nameBytes hname)]
  rfl

end RoundTrip

/-- A name of ASCII is the text of its bytes, and no other is. -/
theorem asciiText_nameBytes_iff {name : String} :
    asciiText (nameBytes name) = name ↔ Text.Only (fun c => c.toNat < 128) name := by
  constructor
  · intro htext c hc
    -- there are as many characters as bytes, so that none has two
    have hlength : Offsets.extent Char.utf8Size name.toList = name.toList.length := by
      rw [← length_nameBytes]
      conv_rhs => rw [← htext, asciiText, String.toList_ofList, List.length_map]
    have hone := Offsets.width_eq_one_of_extent Char.utf8Size_pos hlength c hc
    exact Nat.lt_succ_of_le (UInt32.le_iff_toNat_le.mp (Char.utf8Size_eq_one_iff.mp hone))
  · intro hascii
    have hbytes : ∀ b ∈ nameBytes name, b < 0x80 := by
      intro b hb
      rw [nameBytes_eq_flatMap, List.mem_flatMap] at hb
      obtain ⟨c, hc, hb⟩ := hb
      have hlt := hascii c hc
      have hone : c.utf8Size = 1 :=
        Char.utf8Size_eq_one_iff.mpr (UInt32.le_iff_toNat_le.mpr (Nat.le_of_lt_succ hlt))
      rw [String.utf8EncodeChar_eq_singleton hone, List.mem_singleton] at hb
      rw [hb, UInt8.lt_iff_toNat_lt, UInt32.toNat_toUInt8]
      exact (Nat.mod_le _ _).trans_lt hlt
    exact nameBytes_inj.mp (nameBytes_asciiText hbytes)

/-- A name without a backslash (`hname`) comes back as it was exactly if it is of ASCII. The digits
of an escape are upper or lower case, as `h` has them: `lsof` escapes a name byte by byte, and the
decoder makes a character of every byte. -/
theorem decodeLsofString_iff (h : HexAlphabet) (name : String) (hname : '\\' ∉ name.toList) :
    decodeLsofString (lsofEscape h name) = name ↔ Text.Only (fun c => c.toNat < 128) name := by
  rw [decodeLsofString_lsofEscape h hname]
  exact asciiText_nameBytes_iff

/-- `Café` comes back with each byte of its last letter as a letter. -/
theorem decodeLsofString_cafe : '\\' ∉ "Café".toList ∧
    ¬ decodeLsofString (lsofEscape .lower "Café") = "Café" := by
  have hname : '\\' ∉ "Café".toList := by decide +kernel
  have hdecoded : decodeLsofString (lsofEscape .lower "Café") = "CafÃ©" := by
    rw [decodeLsofString_lsofEscape .lower hname]
    decide +kernel
  rw [hdecoded]
  exact ⟨hname, by decide +kernel⟩

/-- A name with a space. -/
theorem decodeLsofString_iff_sample :
    decodeLsofString (lsofEscape .lower "Microsoft Teams") = "Microsoft Teams" ↔
      Text.Only (fun c => c.toNat < 128) "Microsoft Teams" :=
  decodeLsofString_iff .lower "Microsoft Teams" (by decide +kernel)

end RustNet
