import Mathlib.Data.FinEnum
import RustNet.Foundations.Access
import RustNet.Foundations.BigEndian
import RustNet.Network.Tls.HostName
import RustNet.Network.Types.Application

/-!
# NetBIOS names

A NetBIOS name has sixteen bytes: up to fifteen characters, padded with spaces, and a suffix that
says what kind of service has the name. On the wire each byte is two letters, one for each half.
`decode_netbios_name` puts the bytes together again and keeps those that are graphic. That drops the
padding, and with it every other space; the suffix it drops only if it is not graphic itself.

The analyses of the two services are programs over `Access`, in `NetBios.Program`, with a reading
that checks their accesses and one that does not. No payload makes a check fail.

## Main definitions

* `NetBios.Program.decodeNetbiosName`, and the analyses of the two services over it;
* `NetBios.decodeNetbiosName`, `NetBios.analyzeNetbiosNs`, `NetBios.analyzeNetbiosDgm`, and those of
  `NetBios.Indexed`: their readings;
* `NetBios.Name`, `NetBios.Name.encode`: a name, and what goes over the wire.

## Main results

* `NetBios.Indexed.analyzeNetbiosNs_eq`, `NetBios.Indexed.analyzeNetbiosDgm_eq`: with checks they
  return, and return the same;
* `NetBios.decodeNetbiosName_encode`: what is read back of a name;
* `NetBios.decodeNetbiosName_encode_iff`: when that is the name.
-/

namespace RustNet

namespace NetBios

/-! ## Decoding -/

/-- `u8::is_ascii_graphic`: a byte that can be seen when it is printed, so that the spaces that pad
a name are not. -/
def isAsciiGraphic (c : UInt8) : Bool := decide (0x21 ≤ c ∧ c ≤ 0x7E)

/-- A letter of an encoded name. -/
def isNibbleLetter (c : UInt8) : Bool := decide (0x41 ≤ c ∧ c ≤ 0x50)

/-- The name of some characters, if there are any. -/
def nonempty (name : List UInt8) : Option String :=
  if name.isEmpty then none else some (asciiText name)

/-- `parse_opcode`: the operation of a request of the name service, from the four bits of the header
that hold it. -/
def parseOpcode (value : UInt8) : NetBiosOpcode :=
  if value = 0 then .query
  else if value = 5 then .registration
  else if value = 6 then .release
  else if value = 7 then .wack
  else if value = 8 then .refresh
  else .unknown value

/-- The match on `msg_type` in `analyze_netbios_dgm`, which reads the type of a datagram as an
operation of the name service. -/
def datagramOpcode (msgType : UInt8) : NetBiosOpcode :=
  if msgType ∈ [0x10, 0x11, 0x13, 0x14] then .query
  else if msgType = 0x12 then .registration
  else if msgType ∈ [0x15, 0x16] then .response
  else .unknown msgType

namespace Program

open Access

variable {m : Type → Type} [Access m]

/-- The loop of `decode_netbios_name`, from the character `i` on, with the characters of the name as
bytes. -/
def decodeLoop (data : List UInt8) : ℕ → ℕ → List UInt8 → m (Option (List UInt8))
  | 0, _, name => return some name
  | rounds + 1, i, name => do
    let idx ← add 1 (i * 2)
    let next ← add idx 1
    -- the data ends
    if data.length ≤ next then return some name
    let hi ← index data idx
    let lo ← index data next
    if !isNibbleLetter hi || !isNibbleLetter lo then return none
    let hiNibble ← sub hi.toNat 0x41
    let loNibble ← sub lo.toNat 0x41
    let c := (UInt8.ofNat hiNibble <<< 4) ||| UInt8.ofNat loNibble
    decodeLoop data rounds (i + 1) (if isAsciiGraphic c then name ++ [c] else name)

/-- `decode_netbios_name`: thirty-two letters behind their length, two for each of the sixteen bytes
of a name. Letters outside the encoding and an empty name give nothing. -/
def decodeNetbiosName (data : List UInt8) : m (Option String) := do
  if data.isEmpty = true then return none
  let nameLen ← index data 0
  if nameLen ≠ 32 ∨ data.length < 33 then return none
  let name? ← decodeLoop data 16 0 []
  return name?.bind nonempty

/-- The name behind a header of `offset` bytes. -/
def nameBehind (payload : List UInt8) (offset : ℕ) : m (Option String) :=
  if offset < payload.length then do
    let data ← sliceFrom payload offset
    decodeNetbiosName data
  else return none

/-- `analyze_netbios_ns`: whether the message is a response and which operation it asks for, from
the flags, and the name behind the header. -/
def analyzeNetbiosNs (payload : List UInt8) : m (Option NetBiosInfo) := do
  if payload.length < 12 then return none
  let flagBytes ← indices payload 2 2
  let flags := UInt16.ofNat (BigEndian.value flagBytes)
  let opcodeValue := ((flags >>> 11) &&& 0x0F).toUInt8
  let name ← nameBehind payload 12
  return some
    { service := .nameService
      opcode := if flags &&& 0x8000 ≠ 0 then .response else parseOpcode opcodeValue
      name := name }

/-- `analyze_netbios_dgm`: the type of the datagram in its first byte, and the name of the sender
behind the header. -/
def analyzeNetbiosDgm (payload : List UInt8) : m (Option NetBiosInfo) := do
  if payload.length < 14 then return none
  let msgType ← index payload 0
  let name ← nameBehind payload 14
  return some { service := .datagramService, opcode := datagramOpcode msgType, name := name }

end Program

/-- `decode_netbios_name`, with its indices read where they are: the name when none of them
fails. -/
def decodeNetbiosName (data : List UInt8) : Option String := Id.run (Program.decodeNetbiosName data)

/-- `analyze_netbios_ns`, with its indices read where they are: the record when none of them
fails. -/
def analyzeNetbiosNs (payload : List UInt8) : Option NetBiosInfo :=
  Id.run (Program.analyzeNetbiosNs payload)

/-- `analyze_netbios_dgm`, with its indices read where they are: the record when none of them
fails. -/
def analyzeNetbiosDgm (payload : List UInt8) : Option NetBiosInfo :=
  Id.run (Program.analyzeNetbiosDgm payload)

namespace Indexed

/-- `analyze_netbios_ns`, with its accesses checked. -/
def analyzeNetbiosNs (payload : List UInt8) : Checked (Option NetBiosInfo) :=
  Program.analyzeNetbiosNs payload

/-- `analyze_netbios_dgm`, with its accesses checked. -/
def analyzeNetbiosDgm (payload : List UInt8) : Checked (Option NetBiosInfo) :=
  Program.analyzeNetbiosDgm payload

end Indexed

/-! ## Every access is in range -/

section Agreement

open Access

variable {payload data : List UInt8}

/-- A letter of a name is not below `A`. -/
theorem le_of_isNibbleLetter {c : UInt8} (h : isNibbleLetter c = true) : 0x41 ≤ c.toNat := by
  rw [isNibbleLetter, decide_eq_true_iff, UInt8.le_iff_toNat_le] at h
  exact h.1

theorem Program.agrees_decodeLoop {rounds i : ℕ} (h : i + rounds ≤ 16) (name : List UInt8) :
    Agrees (decodeLoop data rounds i name) (decodeLoop data rounds i name) := by
  induction rounds generalizing i name with
  | zero => exact agrees_pure _
  | succ rounds ih =>
    refine (agrees_add (by omega)).bind ((agrees_add (by omega)).bind ?_)
    refine Agrees.ite (fun _ => agrees_pure _) fun hend => ?_
    refine (agrees_index (by omega)).bind ((agrees_index (by omega)).bind ?_)
    refine Agrees.ite (fun _ => agrees_pure _) fun hletters => ?_
    rw [Bool.or_eq_true, not_or, Bool.not_eq_true', Bool.not_eq_true', Bool.not_eq_false,
      Bool.not_eq_false] at hletters
    -- both are letters, from `A` on
    refine (agrees_sub (le_of_isNibbleLetter hletters.1)).bind ?_
    exact (agrees_sub (le_of_isNibbleLetter hletters.2)).bind (ih (by omega) _)

theorem Program.agrees_nameBehind (offset : ℕ) :
    Agrees (nameBehind payload offset) (nameBehind payload offset) := by
  refine Agrees.ite (fun hlt => ?_) fun _ => agrees_pure _
  refine (agrees_sliceFrom hlt.le).bind ?_
  refine Agrees.ite (fun _ => agrees_pure _) fun hne => ?_
  refine (agrees_index (List.length_pos_iff.mpr fun h => hne (List.isEmpty_iff.mpr h))).bind ?_
  refine Agrees.ite (fun _ => agrees_pure _) fun _ => ?_
  exact (Program.agrees_decodeLoop (by decide) []).bind (agrees_pure _)

/-- With its accesses checked, the analysis of the name service returns, and it returns the same. -/
theorem Indexed.analyzeNetbiosNs_eq (payload : List UInt8) :
    Indexed.analyzeNetbiosNs payload = pure (NetBios.analyzeNetbiosNs payload) := by
  show Agrees (Program.analyzeNetbiosNs payload) (Program.analyzeNetbiosNs payload)
  refine Agrees.ite (fun _ => agrees_pure _) fun hlength => ?_
  refine (agrees_indices (by omega)).bind ?_
  exact (Program.agrees_nameBehind 12).bind (agrees_pure _)

/-- So does that of the datagram service. -/
theorem Indexed.analyzeNetbiosDgm_eq (payload : List UInt8) :
    Indexed.analyzeNetbiosDgm payload = pure (NetBios.analyzeNetbiosDgm payload) := by
  show Agrees (Program.analyzeNetbiosDgm payload) (Program.analyzeNetbiosDgm payload)
  refine Agrees.ite (fun _ => agrees_pure _) fun hlength => ?_
  refine (agrees_index (by omega)).bind ?_
  exact (Program.agrees_nameBehind 14).bind (agrees_pure _)

end Agreement

/-! ## Encoding -/

/-- The two letters of a byte. -/
def encodeByte (b : UInt8) : List UInt8 := [(b >>> 4) + 0x41, (b &&& 0x0F) + 0x41]

/-- First-level encoding of sixteen bytes. -/
def encodeBytes (bytes : List UInt8) : List UInt8 := 32 :: bytes.flatMap encodeByte

/-- A name of printable characters. -/
structure Name where
  chars : List UInt8
  length_le : chars.length ≤ 15
  printable : ∀ c ∈ chars, 0x20 ≤ c ∧ c ≤ 0x7E
  no_trailing : chars.getLast? ≠ some 0x20

namespace Name

/-- The sixteen bytes of a name and a suffix. -/
def padded (name : Name) (suffix : UInt8) : List UInt8 :=
  name.chars ++ List.replicate (15 - name.chars.length) 0x20 ++ [suffix]

/-- What goes over the wire. -/
def encode (name : Name) (suffix : UInt8) : List UInt8 := encodeBytes (name.padded suffix)

/-- How the decoder returns a name: the empty one as `None`. -/
def reported (name : Name) : Option String := nonempty name.chars

/-- A name without a space, and a suffix that is no graphic character. -/
def Plain (name : Name) (suffix : UInt8) : Prop :=
  0x20 ∉ name.chars ∧ ¬ (0x21 ≤ suffix ∧ suffix ≤ 0x7E)

end Name

/-! ## What is read back -/

section RoundTrip

variable {name : Name} {suffix : UInt8}

/-- The halves of a byte are those that its letters stand for. -/
theorem decode_encodeByte (b : UInt8) :
    isNibbleLetter ((b >>> 4) + 0x41) = true ∧ isNibbleLetter ((b &&& 0x0F) + 0x41) = true ∧
      (UInt8.ofNat (((b >>> 4) + 0x41).toNat - 0x41) <<< 4 |||
        UInt8.ofNat (((b &&& 0x0F) + 0x41).toNat - 0x41)) = b := by
  revert b
  decide +kernel

theorem isAsciiGraphic_lt {b : UInt8} (h : isAsciiGraphic b = true) : b < 0x80 := by
  rw [isAsciiGraphic, decide_eq_true_iff] at h
  exact UInt8.lt_of_le_of_lt h.2 (by decide)

/-- The loop keeps the graphic ones of the bytes it comes to. -/
theorem decodeLoop_flatMap {data rest : List UInt8} (bytes : List UInt8) {i : ℕ}
    (hdata : data.drop (1 + i * 2) = bytes.flatMap encodeByte ++ rest) (kept : List UInt8) :
    Id.run (Program.decodeLoop data bytes.length i kept) =
      some (kept ++ bytes.filter isAsciiGraphic) := by
  induction bytes generalizing i kept with
  | nil => rw [List.filter_nil, List.append_nil]; rfl
  | cons b bytes ih =>
    obtain ⟨hhi, hlo, hbyte⟩ := decode_encodeByte b
    have hletters : data.drop (1 + i * 2) = ((b >>> 4) + 0x41) :: ((b &&& 0x0F) + 0x41) ::
        (bytes.flatMap encodeByte ++ rest) := hdata
    -- the letters of the two nibbles
    have hfirst : data.getD (1 + i * 2) default = (b >>> 4) + 0x41 := by
      rw [List.getD_eq_getElem?_getD, ← List.head?_drop, hletters]
      rfl
    have hsecond : data.getD (1 + i * 2 + 1) default = (b &&& 0x0F) + 0x41 := by
      rw [List.getD_eq_getElem?_getD, ← List.head?_drop, ← List.drop_drop, hletters]
      rfl
    have hnext : data.drop (1 + (i + 1) * 2) = bytes.flatMap encodeByte ++ rest := by
      rw [show 1 + (i + 1) * 2 = 1 + i * 2 + 2 by omega, ← List.drop_drop, hletters]
      rfl
    have hlength : ¬ data.length ≤ 1 + i * 2 + 1 := by
      have hlong := congrArg List.length hletters
      rw [List.length_drop, List.length_cons, List.length_cons] at hlong
      omega
    rw [List.length_cons, Program.decodeLoop]
    simp only [Id.run_bind, Access.run_add, Access.run_index, Access.run_sub, if_neg hlength,
      hfirst, hsecond, hhi, hlo, Bool.not_true, Bool.or_self, Bool.false_eq_true, if_false, hbyte]
    rw [ih hnext, List.filter_cons]
    split_ifs
    · rw [List.append_assoc, List.singleton_append]
    · rfl

theorem Name.length_padded (name : Name) (suffix : UInt8) : (name.padded suffix).length = 16 := by
  have hlength := name.length_le
  simp only [padded, List.length_append, List.length_replicate, List.length_singleton]
  omega

/-- What the decoder keeps of the sixteen bytes. -/
theorem Name.filter_padded (name : Name) (suffix : UInt8) :
    (name.padded suffix).filter isAsciiGraphic =
      name.chars.filter isAsciiGraphic ++ [suffix].filter isAsciiGraphic := by
  have hspaces : (List.replicate (15 - name.chars.length) (0x20 : UInt8)).filter
      isAsciiGraphic = [] := by
    rw [List.filter_replicate_of_neg (by decide)]
  rw [padded, List.filter_append, List.filter_append, hspaces, List.append_nil]

/-- The graphic characters of the name are read back, and the suffix if it is one too. -/
theorem decodeNetbiosName_encode (name : Name) (suffix : UInt8) (rest : List UInt8) :
    decodeNetbiosName (name.encode suffix ++ rest) =
      nonempty (name.chars.filter isAsciiGraphic ++ [suffix].filter isAsciiGraphic) := by
  -- the length and the thirty-two letters are there
  have hlength : ¬ (name.encode suffix ++ rest).length < 33 := by
    have hflat : ((name.padded suffix).flatMap encodeByte).length = 32 := by
      rw [List.length_flatMap]
      simp [encodeByte, name.length_padded]
    rw [Name.encode, encodeBytes, List.cons_append, List.length_cons, List.length_append, hflat]
    omega
  -- sixteen rounds, one for each byte of the padded name
  have hloop : Id.run (Program.decodeLoop (name.encode suffix ++ rest) 16 0 []) =
      some ([] ++ (name.padded suffix).filter isAsciiGraphic) := by
    rw [← name.length_padded suffix]
    have hdata : (name.encode suffix ++ rest).drop 1 =
        (name.padded suffix).flatMap encodeByte ++ rest := rfl
    exact decodeLoop_flatMap (name.padded suffix) hdata []
  rw [List.nil_append, name.filter_padded] at hloop
  have hstart : (name.encode suffix ++ rest).getD 0 default = 32 := rfl
  have hne : ¬ (name.encode suffix ++ rest).isEmpty = true := Bool.false_ne_true
  simp only [decodeNetbiosName, Program.decodeNetbiosName, Id.run_bind, Access.run_ite,
    Access.run_index, if_neg hne, hstart, Id.run_pure]
  rw [if_neg (by simpa using hlength), hloop, Option.bind_some]

theorem nonempty_inj {bs cs : List UInt8} (hb : ∀ b ∈ bs, b < 0x80) (hc : ∀ c ∈ cs, c < 0x80) :
    nonempty bs = nonempty cs ↔ bs = cs := by
  refine ⟨fun h => ?_, congrArg nonempty⟩
  rw [nonempty, nonempty] at h
  split_ifs at h with hbs hcs hcs
  · rw [List.isEmpty_iff.mp hbs, List.isEmpty_iff.mp hcs]
  · rw [← nameBytes_asciiText hb, ← nameBytes_asciiText hc, Option.some.inj h]

/-- A name is kept whole, and nothing but it, exactly if all of it is graphic and the suffix is
not. -/
theorem Name.filter_eq_iff (name : Name) (suffix : UInt8) :
    name.chars.filter isAsciiGraphic ++ [suffix].filter isAsciiGraphic = name.chars ↔
      name.Plain suffix := by
  have hgraphic : (∀ c ∈ name.chars, isAsciiGraphic c = true) ↔ 0x20 ∉ name.chars := by
    constructor
    · exact fun h hspace => absurd (h _ hspace) (by decide)
    · intro h c hc
      obtain ⟨hlow, hhigh⟩ := name.printable c hc
      have hne : c ≠ 0x20 := fun heq => h (heq ▸ hc)
      rw [isAsciiGraphic, decide_eq_true_iff]
      refine ⟨?_, hhigh⟩
      rw [UInt8.le_iff_toNat_le] at hlow ⊢
      rw [ne_eq, ← UInt8.toNat_inj] at hne
      exact Nat.lt_of_le_of_ne hlow (Ne.symm hne)
  have hsuffix : [suffix].filter isAsciiGraphic = [] ↔ ¬ (0x21 ≤ suffix ∧ suffix ≤ 0x7E) := by
    rw [List.filter_eq_nil_iff, List.forall_mem_singleton, isAsciiGraphic, decide_eq_true_iff]
  rw [Plain, ← hgraphic, ← hsuffix]
  constructor
  · intro h
    -- whatever is kept is graphic, so all of the name is
    have hall : ∀ c ∈ name.chars, isAsciiGraphic c = true := by
      intro c hc
      rw [← h, ← List.filter_append] at hc
      exact (List.mem_filter.mp hc).2
    rw [List.filter_eq_self.mpr hall] at h
    exact ⟨hall, List.append_right_eq_self.mp h⟩
  · rintro ⟨hall, hnone⟩
    rw [List.filter_eq_self.mpr hall, hnone, List.append_nil]

/-- A name is read back exactly if it has no space and its suffix is no graphic character. The name
has up to fifteen characters, which are padded with spaces, and the sixteenth byte is its suffix;
any bytes may follow. The decoder keeps every graphic byte, wherever it stands, and no other. -/
theorem decodeNetbiosName_encode_iff (name : Name) (suffix : UInt8) (rest : List UInt8) :
    decodeNetbiosName (name.encode suffix ++ rest) = name.reported ↔ name.Plain suffix := by
  have hkept : ∀ c ∈ name.chars.filter isAsciiGraphic ++ [suffix].filter isAsciiGraphic,
      c < 0x80 := by
    intro c hc
    rw [← List.filter_append] at hc
    exact isAsciiGraphic_lt (List.mem_filter.mp hc).2
  have hchars : ∀ c ∈ name.chars, c < 0x80 := fun c hc =>
    UInt8.lt_of_le_of_lt (name.printable c hc).2 (by decide)
  rw [decodeNetbiosName_encode, Name.reported, nonempty_inj hkept hchars, name.filter_eq_iff]

/-- The name behind a header is read. -/
theorem decodeNetbiosName_drop (name : Name) (suffix : UInt8) (rest : List UInt8)
    {header : List UInt8} {size : ℕ} (hheader : header.length = size) :
    size < (header ++ (name.encode suffix ++ rest)).length ∧
      decodeNetbiosName ((header ++ (name.encode suffix ++ rest)).drop size) =
        nonempty (name.chars.filter isAsciiGraphic ++ [suffix].filter isAsciiGraphic) := by
  constructor
  · rw [List.length_append, hheader, Name.encode, encodeBytes, List.cons_append, List.length_cons]
    omega
  · rw [List.drop_left' hheader, decodeNetbiosName_encode]

theorem run_nameBehind {payload : List UInt8} {offset : ℕ} (h : offset < payload.length) :
    Id.run (Program.nameBehind payload offset) = decodeNetbiosName (payload.drop offset) := by
  unfold Program.nameBehind
  rw [if_pos h]
  rfl

/-- The name service reports the name of a question. -/
theorem analyzeNetbiosNs_name {header rest : List UInt8} (hheader : header.length = 12) :
    (analyzeNetbiosNs (header ++ (name.encode suffix ++ rest))).bind NetBiosInfo.name =
      nonempty (name.chars.filter isAsciiGraphic ++ [suffix].filter isAsciiGraphic) := by
  obtain ⟨hlength, hname⟩ := decodeNetbiosName_drop name suffix rest hheader
  simp only [analyzeNetbiosNs, Program.analyzeNetbiosNs, Id.run_bind,
    if_neg (Nat.lt_asymm hlength), run_nameBehind hlength, hname]
  rfl

/-- The datagram service reports the name that its header has behind it. -/
theorem analyzeNetbiosDgm_name {header rest : List UInt8} (hheader : header.length = 14) :
    (analyzeNetbiosDgm (header ++ (name.encode suffix ++ rest))).bind NetBiosInfo.name =
      nonempty (name.chars.filter isAsciiGraphic ++ [suffix].filter isAsciiGraphic) := by
  obtain ⟨hlength, hname⟩ := decodeNetbiosName_drop name suffix rest hheader
  simp only [analyzeNetbiosDgm, Program.analyzeNetbiosDgm, Id.run_bind,
    if_neg (Nat.lt_asymm hlength), run_nameBehind hlength, hname]
  rfl

end RoundTrip

/-- `PC`, a name of two characters. -/
def samplePc : Name where
  chars := [0x50, 0x43]
  length_le := by decide
  printable := by decide +kernel
  no_trailing := by decide

/-- A suffix that is a graphic character, here that of a client for remote access, ends up in the
name. -/
theorem decodeNetbiosName_suffix :
    decodeNetbiosName (samplePc.encode 0x21) = some "PC!" ∧ samplePc.reported = some "PC" := by
  refine ⟨?_, ?_⟩ <;> decide +kernel

end NetBios

end RustNet
