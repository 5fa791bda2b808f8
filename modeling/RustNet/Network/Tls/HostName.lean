import RustNet.Foundations.Text
import RustNet.Network.Parser.Packet

/-!
# Host names

What the extraction of server names takes for a host name: `is_valid_hostname`, the weaker
`is_valid_partial_hostname` for a name that is cut off, and the mark that a cut-off name gets.

## Main definitions

* `isValidHostname`, `isValidPartialHostname`, `markPartialSni`;
* `Surfaced`: a name that may be handed out, with or without cut-off names.

## Main results

* `not_isPartialSni_of_valid`: a host name does not end in the mark;
* `Surfaced.isPartialSni_eq`: without cut-off names only host names are handed out;
* `completeName_nameBytes`: a host name is read from its own bytes.
-/

namespace RustNet

/-- `std::str::from_utf8`: the text of the bytes, or nothing when they are not UTF-8 as a whole. -/
def fromUtf8 (bytes : List UInt8) : Option String := String.fromUTF8? ⟨bytes.toArray⟩

/-- `PARTIAL_SNI_MIN_LENGTH`: shorter parts of a name are not shown. -/
def partialSniMinLength : ℕ := 3

/-- `PARTIAL_SNI_MARKER`: the mark behind a name of which only a part is known. -/
def partialSniMarker : String := "[PARTIAL]"

/-- A character of a host name. -/
def isHostnameChar (c : Char) : Bool := c.isAlphanum || c == '.' || c == '-'

/-- `is_valid_hostname`: the length of a name, a dot in it, the characters of host names, and none
of the dots and hyphens where a name cannot have them. -/
def isValidHostname (hostname : String) : Bool :=
  let chars := hostname.toList
  if hostname.utf8ByteSize < 4 || 253 < hostname.utf8ByteSize then false
  else if !chars.contains '.' then false
  else if !chars.all isHostnameChar then false
  -- no dot or hyphen at either end
  else if chars.head? == some '.' || chars.getLast? == some '.' || chars.head? == some '-' ||
      chars.getLast? == some '-' then false
  -- no two dots in a row
  else if (chars.zip chars.tail).contains ('.', '.') then false
  else if !chars.any Char.isAlpha then false
  else
    let parts := chars.splitOn '.'
    if parts.length < 2 then false
    else parts.all fun part => !part.isEmpty && decide ((part.map Char.utf8Size).sum ≤ 63)

/-- `is_valid_partial_hostname`: what can be the beginning of a host name, which needs a letter but
no dot. -/
def isValidPartialHostname (hostname : String) : Bool :=
  let chars := hostname.toList
  if hostname.utf8ByteSize < partialSniMinLength then false
  else if !chars.all isHostnameChar then false
  else if !chars.any Char.isAlpha then false
  else if chars.head? == some '.' || chars.head? == some '-' then false
  else true

/-- `mark_partial_sni`: the mark is put behind the part of the name that is known. -/
def markPartialSni (hostname : String) : String := hostname ++ partialSniMarker

/-- A complete host name of some bytes. -/
def completeName (bytes : List UInt8) : Option String := (fromUtf8 bytes).filter isValidHostname

/-- A host name whose bytes are cut off, with the mark. -/
def cutName (bytes : List UInt8) : Option String :=
  ((fromUtf8 bytes).filter isValidPartialHostname).map markPartialSni

/-! ## Complete and cut-off names -/

/-- The characters of a host name. -/
theorem isHostnameChar_of_valid {s : String} (h : isValidHostname s = true) :
    ∀ c ∈ s.toList, isHostnameChar c = true := by
  rw [isValidHostname] at h
  by_contra hnot
  have hall : s.toList.all isHostnameChar = false := by
    rw [← Bool.not_eq_true, List.all_eq_true]
    exact hnot
  simp [hall] at h

theorem isHostnameChar_of_validPartial {s : String} (h : isValidPartialHostname s = true) :
    ∀ c ∈ s.toList, isHostnameChar c = true := by
  rw [isValidPartialHostname] at h
  by_contra hnot
  have hall : s.toList.all isHostnameChar = false := by
    rw [← Bool.not_eq_true, List.all_eq_true]
    exact hnot
  simp [hall] at h

/-- The bracket at the end of the mark is no character of a host name. -/
theorem not_isPartialSni {s : String} (h : ∀ c ∈ s.toList, isHostnameChar c = true) :
    isPartialSni s = false := by
  rw [isPartialSni, ← Bool.not_eq_true, List.isSuffixOf_iff_suffix]
  intro hsuffix
  exact absurd (h ']' (hsuffix.subset (by decide))) (by decide)

theorem not_isPartialSni_of_valid {s : String} (h : isValidHostname s = true) :
    isPartialSni s = false := not_isPartialSni (isHostnameChar_of_valid h)

theorem not_isPartialSni_of_validPartial {s : String} (h : isValidPartialHostname s = true) :
    isPartialSni s = false := not_isPartialSni (isHostnameChar_of_validPartial h)

@[simp]
theorem isPartialSni_markPartialSni (s : String) : isPartialSni (markPartialSni s) = true := by
  rw [isPartialSni, markPartialSni, List.isSuffixOf_iff_suffix, String.toList_append]
  exact List.suffix_append _ _

/-- A host name, or, if these are let through, a cut-off one with one mark. -/
def Surfaced (allowPartial : Bool) (sni : String) : Prop :=
  isValidHostname sni = true ∨
    allowPartial = true ∧ ∃ cut, isValidPartialHostname cut = true ∧ sni = markPartialSni cut

theorem Surfaced.mono {allowPartial : Bool} {sni : String} (h : Surfaced allowPartial sni) :
    Surfaced true sni := h.imp_right fun h => ⟨rfl, h.2⟩

/-- Without cut-off names only host names are handed out. -/
theorem Surfaced.isPartialSni_eq {allowPartial : Bool} {sni : String}
    (h : Surfaced allowPartial sni) (hcomplete : allowPartial = false) :
    isPartialSni sni = false := by
  rcases h with hvalid | ⟨hallow, -⟩
  · exact not_isPartialSni_of_valid hvalid
  · exact absurd (hallow.symm.trans hcomplete) (by decide)

theorem surfaced_completeName {bytes : List UInt8} {sni : String}
    (h : completeName bytes = some sni) (allowPartial : Bool) : Surfaced allowPartial sni :=
  Or.inl (Option.filter_eq_some_iff.mp h).2

theorem surfaced_cutName {bytes : List UInt8} {sni : String} (h : cutName bytes = some sni) :
    Surfaced true sni := by
  obtain ⟨cut, hcut, rfl⟩ := Option.map_eq_some_iff.mp h
  exact Or.inr ⟨rfl, cut, (Option.filter_eq_some_iff.mp hcut).2, rfl⟩

/-! ## Names as bytes -/

/-- The bytes of a name. -/
def nameBytes (name : String) : List UInt8 := name.toUTF8.data.toList

theorem fromUtf8_nameBytes (name : String) : fromUtf8 (nameBytes name) = some name := by
  have hbytes : (⟨(nameBytes name).toArray⟩ : ByteArray) = name.toByteArray := by
    rw [nameBytes, Array.toArray_toList]
    rfl
  rw [fromUtf8, hbytes, String.fromUTF8?]
  exact dif_pos name.isValidUTF8

theorem nameBytes_of_fromUtf8 {bytes : List UInt8} {text : String}
    (h : fromUtf8 bytes = some text) : nameBytes text = bytes := by
  rw [fromUtf8, String.fromUTF8?] at h
  split_ifs at h with hvalid
  rw [← Option.some.inj h]
  rfl

theorem nameBytes_inj {s t : String} : nameBytes s = nameBytes t ↔ s = t := by
  refine ⟨fun h => ?_, congrArg nameBytes⟩
  have htext := fromUtf8_nameBytes s
  rw [h, fromUtf8_nameBytes] at htext
  exact (Option.some.inj htext).symm

theorem nameBytes_append (s t : String) : nameBytes (s ++ t) = nameBytes s ++ nameBytes t := by
  simp [nameBytes, String.toUTF8, String.toByteArray_append]

/-- The text of bytes below `0x80`, one character each. -/
def asciiText (bytes : List UInt8) : String :=
  String.ofList (bytes.map fun b => Char.ofNat b.toNat)

theorem nameBytes_asciiText {bytes : List UInt8} (h : ∀ b ∈ bytes, b < 0x80) :
    nameBytes (asciiText bytes) = bytes := by
  induction bytes with
  | nil => rfl
  | cons b bytes ih =>
    have hb : b.toNat < 128 := UInt8.lt_iff_toNat_lt.mp (h b List.mem_cons_self)
    have hchar : (Char.ofNat b.toNat).toNat = b.toNat := by
      rw [Text.toNat_charOfNat, if_pos (Or.inl (by omega))]
    -- a character of ASCII is encoded as its own byte
    have hsize : (Char.ofNat b.toNat).utf8Size = 1 := by
      rw [Char.utf8Size_eq_one_iff, UInt32.le_iff_toNat_le]
      exact hchar.trans_le (Nat.le_of_lt_succ hb)
    have hval : (Char.ofNat b.toNat).val.toUInt8 = b := by
      apply UInt8.toNat_inj.mp
      rw [UInt32.toNat_toUInt8]
      exact (congrArg (· % 256) hchar).trans (Nat.mod_eq_of_lt b.toNat_lt)
    have hsingle : nameBytes (String.ofList [Char.ofNat b.toNat]) = [b] := by
      simp [nameBytes, String.toUTF8, List.utf8Encode_singleton,
        String.utf8EncodeChar_eq_singleton hsize, hval]
    have hcons : asciiText (b :: bytes) =
        String.ofList [Char.ofNat b.toNat] ++ asciiText bytes := by
      rw [asciiText, asciiText, ← String.ofList_append]
      rfl
    rw [hcons, nameBytes_append, hsingle, ih fun c hc => h c (List.mem_cons_of_mem b hc)]
    rfl

/-- Bytes below `0x80` are a text. -/
theorem fromUtf8_ascii {bytes : List UInt8} (h : ∀ b ∈ bytes, b < 0x80) :
    fromUtf8 bytes = some (asciiText bytes) := by
  have htext := fromUtf8_nameBytes (asciiText bytes)
  rwa [nameBytes_asciiText h] at htext

/-- A text whose bytes come first in a name comes first in the name. -/
theorem exists_append_of_prefix {name text : String} (h : nameBytes text <+: nameBytes name) :
    ∃ rest, name = text ++ rest := by
  obtain ⟨bytes, hbytes⟩ := h
  have hname : name.toByteArray = text.toByteArray ++ bytes.toByteArray := by
    apply ByteArray.ext
    apply Array.toList_inj.mp
    rw [ByteArray.data_append, Array.toList_append, List.toList_data_toByteArray]
    exact hbytes.symm
  -- the end of the text is a boundary between characters of the name
  have hboundary : text.rawEndPos.IsValid name := by
    rw [String.Pos.Raw.isValid_iff_isValidUTF8_extract_zero, hname]
    refine ⟨?_, ?_⟩
    · have hlen : (nameBytes text ++ bytes).length = (nameBytes text).length + bytes.length :=
        List.length_append
      rw [hbytes] at hlen
      rw [String.Pos.Raw.le_iff]
      exact (Nat.le_add_right _ _).trans_eq hlen.symm
    · simpa [ByteArray.extract_append_eq_left] using text.isValidUTF8
  obtain ⟨front, rest, rfl, hend⟩ := String.Pos.Raw.isValid_iff_exists_append.mp hboundary
  rw [nameBytes_append] at hbytes
  have hlength : (nameBytes text).length = (nameBytes front).length := congrArg (·.byteIdx) hend
  rw [nameBytes_inj.mp (List.append_inj hbytes hlength).1]
  exact ⟨rest, rfl⟩

theorem completeName_nameBytes {name : String} (h : isValidHostname name = true) :
    completeName (nameBytes name) = some name := by
  rw [completeName, fromUtf8_nameBytes, Option.filter_some, if_pos h]

/-- A host name has between 4 and 253 bytes. -/
theorem length_nameBytes_of_valid {name : String} (h : isValidHostname name = true) :
    4 ≤ (nameBytes name).length ∧ (nameBytes name).length ≤ 253 := by
  have hlen : (nameBytes name).length = name.utf8ByteSize := rfl
  by_contra hnot
  have hsize : name.utf8ByteSize < 4 ∨ 253 < name.utf8ByteSize := by omega
  rw [isValidHostname] at h
  simp [hsize] at h

end RustNet
