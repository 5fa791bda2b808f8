import RustNet.Network.Dns.Records

/-!
# Where the questions end

`skip_dns_name` and `parse_question` both go over the labels of a name, but `parse_question` gives up
once their text is longer than 253 bytes. It then reads the type of the question, and the next
question, in the middle of the name.

## Main definitions

* `Dns.NameAt`: there is a name with some labels at an offset, and where it ends;
* `Dns.skipQuestions`: the questions as `skip_dns_name` goes over them;
* `Dns.ShortNames`: no question has a name of more than 253 bytes.

## Main results

* `Dns.skipDnsName_eq_some_iff`: `skip_dns_name` goes to the end of the name;
* `Dns.parseQuestion_of_nameAt`: `parse_question` ends four bytes behind it exactly if the text of
  the name is not too long;
* `Dns.endsAgree_iff`: the two agree on the questions exactly if no name is too long.
-/

namespace RustNet

namespace Dns

open Checked

/-! ## Names as they are skipped -/

/-- At `offset` there is a name with these labels, which ends before `stop`. -/
inductive NameAt (payload : List UInt8) : ℕ → List (List UInt8) → ℕ → Prop
  | root {offset : ℕ} (hbyte : payload[offset]? = some 0) : NameAt payload offset [] (offset + 1)
  | pointer {offset : ℕ} {labelLen : UInt8} (hbyte : payload[offset]? = some labelLen)
      (hpointer : labelLen &&& 0xC0 = 0xC0) (hsecond : offset + 1 < payload.length) :
      NameAt payload offset [] (offset + 2)
  | label {offset stop : ℕ} {labelLen : UInt8} {labels : List (List UInt8)}
      (hbyte : payload[offset]? = some labelLen) (hne : labelLen ≠ 0)
      (hlabel : labelLen &&& 0xC0 = 0)
      (hfits : offset + (1 + labelLen.toNat) ≤ payload.length)
      (hrest : NameAt payload (offset + (1 + labelLen.toNat)) labels stop) :
      NameAt payload offset ((payload.drop (offset + 1)).take labelLen.toNat :: labels) stop

/-- The text that `parse_question` keeps of a name. -/
def nameText (labels : List (List UInt8)) : String := labels.foldl pushLabel ""

/-- `n` questions, as `skip_dns_name` goes over their names: four bytes follow each. -/
def skipQuestions (payload : List UInt8) : ℕ → ℕ → Checked (Option ℕ)
  | 0, offset => return some offset
  | n + 1, offset => do
    let some afterName ← skipDnsName payload offset | return none
    skipQuestions payload n (afterName + 4)

/-- Of the first `n` questions from `start` on, none has a name with too long a text. -/
def ShortNames (payload : List UInt8) (n start : ℕ) : Prop :=
  ∀ k < n, ∀ offset labels stop, skipQuestions payload k start = pure (some offset) →
    NameAt payload offset labels stop → (nameText labels).utf8ByteSize ≤ maxDnsNameLen

/-- Up to the count `qdcount`, the questions end where they are skipped to. -/
def EndsAgree (payload : List UInt8) (qdcount : UInt16) : Prop :=
  ∀ count ≤ qdcount, ∀ stop, skipQuestions payload count.toNat 12 = pure (some stop) →
    Ensures (parseQuestionsStartingAtHeader payload count) fun parsed => parsed.offset = stop

section Names

variable {payload : List UInt8} {offset stop rounds : ℕ} {labels : List (List UInt8)}

theorem not_pointer_zero : ¬ (0 : UInt8) &&& 0xC0 = 0xC0 := by decide

theorem le_of_pointer {b : UInt8} (h : b &&& 0xC0 = 0xC0) : 0xC0 ≤ b := by
  have hle : (b &&& 0xC0).toNat ≤ b.toNat := by
    rw [UInt8.toNat_and]
    exact Nat.and_le_left
  rw [h] at hle
  exact UInt8.le_iff_toNat_le.mpr hle

theorem not_le_of_label {b : UInt8} (h : b &&& 0xC0 = 0) : ¬ 0xC0 ≤ b := by
  intro hle
  have hbits : ∀ v : BitVec 8, 0xC0 ≤ v → v &&& 0xC0 ≠ 0 := by decide +kernel
  refine hbits b.toBitVec (UInt8.le_iff_toBitVec_le.mp hle) ?_
  exact congrArg UInt8.toBitVec h

theorem index_of_getElem? {b : UInt8} (h : payload[offset]? = some b) :
    index payload offset = pure b := by
  rw [index, h]

theorem lt_length_of_getElem? {b : UInt8} (h : payload[offset]? = some b) :
    offset < payload.length := (List.getElem?_eq_some_iff.mp h).1

/-- A name ends in the message, behind at least one byte. -/
theorem NameAt.stop_le (h : NameAt payload offset labels stop) :
    offset < stop ∧ stop ≤ payload.length := by
  induction h with
  | root hbyte =>
    have hlt := lt_length_of_getElem? hbyte
    omega
  | pointer hbyte hpointer hsecond => omega
  | label hbyte hne hlabel hfits hrest ih => omega

/-- A name is skipped to its end. -/
theorem skipLoop_of_nameAt (h : NameAt payload offset labels stop) (hlen : payload.length < 2 ^ 63)
    (hrounds : payload.length - offset < rounds) :
    skipLoop payload 0 rounds offset = pure (some stop) := by
  induction h generalizing rounds with
  | @root offset hbyte =>
    have hlt := lt_length_of_getElem? hbyte
    obtain ⟨rounds, rfl⟩ := Nat.exists_eq_succ_of_ne_zero (Nat.ne_zero_of_lt hrounds)
    rw [skipLoop, if_neg (by omega), index_of_getElem? hbyte, pure_bind', if_pos rfl,
      add_eq (by omega), pure_bind']
  | @pointer offset labelLen hbyte hpointer hsecond =>
    -- a pointer ends the name, and takes two bytes
    have hne : labelLen ≠ 0 := by
      rintro rfl
      exact not_pointer_zero hpointer
    obtain ⟨rounds, rfl⟩ := Nat.exists_eq_succ_of_ne_zero (Nat.ne_zero_of_lt hrounds)
    rw [skipLoop, if_neg (by omega), index_of_getElem? hbyte, pure_bind', if_neg hne,
      if_pos hpointer, add_eq (by omega), pure_bind', if_neg (by omega), if_neg (by decide),
      add_eq (by omega), pure_bind']
  | @label offset stop labelLen labels hbyte hne hlabel hfits hrest ih =>
    have hlt := lt_length_of_getElem? hbyte
    -- a label is skipped, and the loop goes on behind it
    have hpointer : ¬ labelLen &&& 0xC0 = 0xC0 := by
      rw [hlabel]
      decide
    obtain ⟨rounds, rfl⟩ := Nat.exists_eq_succ_of_ne_zero (Nat.ne_zero_of_lt hrounds)
    rw [skipLoop, if_neg (by omega), index_of_getElem? hbyte, pure_bind', if_neg hne,
      if_neg hpointer, if_neg (not_not.mpr hlabel), checkedAdd_eq (by omega)]
    dsimp only
    rw [if_neg (by omega), ih (by omega)]

/-- What is skipped is a name. -/
theorem exists_nameAt_of_skipLoop (hlen : payload.length < 2 ^ 63)
    (h : skipLoop payload 0 rounds offset = pure (some stop)) :
    ∃ labels, NameAt payload offset labels stop := by
  induction rounds generalizing offset with
  | zero => cases h
  | succ rounds ih =>
    rw [skipLoop] at h
    by_cases hend : payload.length ≤ offset
    · rw [if_pos hend] at h
      cases h
    -- the byte at the offset ends the name, starts a pointer or is the length of a label
    obtain ⟨b, hbyte⟩ : ∃ b, payload[offset]? = some b :=
      ⟨_, List.getElem?_eq_getElem (Nat.not_le.mp hend)⟩
    rw [if_neg hend, index_of_getElem? hbyte, pure_bind'] at h
    split_ifs at h with hroot hpointer hsecond hlabel
    · rw [add_eq (by omega)] at h
      obtain rfl := Option.some.inj (pure_inj.mp h)
      exact ⟨[], .root (hroot ▸ hbyte)⟩
    · exact absurd hsecond (by decide)
    · rw [add_eq (by omega), pure_bind'] at h
      by_cases hsecond : payload.length ≤ offset + 1
      · rw [if_pos hsecond] at h
        cases h
      rw [if_neg hsecond, add_eq (by omega)] at h
      obtain rfl := Option.some.inj (pure_inj.mp h)
      exact ⟨[], .pointer hbyte hpointer (by omega)⟩
    · cases h
    · have hlt := b.toNat_lt
      rw [checkedAdd_eq (by omega)] at h
      dsimp only at h
      by_cases hfits : payload.length < offset + (1 + b.toNat)
      · rw [if_pos hfits] at h
        cases h
      rw [if_neg hfits] at h
      obtain ⟨labels, hlabels⟩ := ih h
      exact ⟨_, .label hbyte hroot (not_not.mp hlabel) (by omega) hlabels⟩

/-- `skip_dns_name` goes to the end of the name that is there. -/
theorem skipDnsName_eq_some_iff (hlen : payload.length < 2 ^ 63) :
    skipDnsName payload offset = pure (some stop) ↔ ∃ labels, NameAt payload offset labels stop := by
  refine ⟨exists_nameAt_of_skipLoop hlen, ?_⟩
  rintro ⟨labels, hname⟩
  exact skipLoop_of_nameAt hname hlen (by omega)

/-! ## Names as they are collected -/

theorem size_le_pushLabel (name : String) (label : List UInt8) :
    name.utf8ByteSize ≤ (pushLabel name label).utf8ByteSize := by
  rw [pushLabel, String.utf8ByteSize_append]
  refine le_trans ?_ (Nat.le_add_right _ _)
  split_ifs
  · exact le_rfl
  · rw [String.utf8ByteSize_append]
    exact Nat.le_add_right _ _

theorem size_le_foldl_pushLabel (labels : List (List UInt8)) (name : String) :
    name.utf8ByteSize ≤ (labels.foldl pushLabel name).utf8ByteSize := by
  induction labels generalizing name with
  | nil => exact le_rfl
  | cons label labels ih => exact (size_le_pushLabel name label).trans (ih (pushLabel name label))

/-- The labels of a name are collected to its end if their text is not too long. Otherwise the walk
stops before the end. -/
theorem labelsLoop_of_nameAt (h : NameAt payload offset labels stop)
    (hlen : payload.length < 2 ^ 63) {name : String} (hname : name.utf8ByteSize ≤ maxDnsNameLen)
    (hrounds : payload.length - offset < rounds) :
    Ensures (labelsLoop payload rounds offset name) fun parsed =>
      ((labels.foldl pushLabel name).utf8ByteSize ≤ maxDnsNameLen →
        parsed = (labels.foldl pushLabel name, stop)) ∧
      (maxDnsNameLen < (labels.foldl pushLabel name).utf8ByteSize → parsed.2 < stop) := by
  induction h generalizing rounds name with
  | @root offset hbyte =>
    have hlt := lt_length_of_getElem? hbyte
    obtain ⟨rounds, rfl⟩ := Nat.exists_eq_succ_of_ne_zero (Nat.ne_zero_of_lt hrounds)
    rw [labelsLoop, if_neg (by omega), index_of_getElem? hbyte, pure_bind', if_pos rfl,
      add_eq (by omega), pure_bind']
    exact ensures_pure ⟨fun _ => rfl, fun hlong => absurd hlong (Nat.not_lt.mpr hname)⟩
  | @pointer offset labelLen hbyte hpointer hsecond =>
    have hne : labelLen ≠ 0 := by
      rintro rfl
      exact not_pointer_zero hpointer
    obtain ⟨rounds, rfl⟩ := Nat.exists_eq_succ_of_ne_zero (Nat.ne_zero_of_lt hrounds)
    rw [labelsLoop, if_neg (by omega), index_of_getElem? hbyte, pure_bind', if_neg hne,
      if_pos (le_of_pointer hpointer), add_eq (by omega), pure_bind']
    exact ensures_pure ⟨fun _ => rfl, fun hlong => absurd hlong (Nat.not_lt.mpr hname)⟩
  | @label offset stop labelLen labels hbyte hne hlabel hfits hrest ih =>
    -- the walk goes on behind the label, unless the text has become too long
    have hlt := lt_length_of_getElem? hbyte
    have hstop := hrest.stop_le.1
    obtain ⟨rounds, rfl⟩ := Nat.exists_eq_succ_of_ne_zero (Nat.ne_zero_of_lt hrounds)
    rw [labelsLoop, if_neg (by omega), index_of_getElem? hbyte, pure_bind', if_neg hne,
      if_neg (not_le_of_label hlabel), add_eq (by omega), pure_bind', if_neg (by omega),
      slice_eq (by omega) hfits, pure_bind',
      show offset + (1 + labelLen.toNat) - (offset + 1) = labelLen.toNat by omega]
    dsimp only
    by_cases hlong : maxDnsNameLen <
        (pushLabel name ((payload.drop (offset + 1)).take labelLen.toNat)).utf8ByteSize
    · have htext := size_le_foldl_pushLabel labels
        (pushLabel name ((payload.drop (offset + 1)).take labelLen.toNat))
      rw [if_pos hlong]
      refine ensures_pure ⟨fun hshort => ?_, fun _ => by omega⟩
      exact absurd (htext.trans hshort) (Nat.not_le.mpr hlong)
    · rw [if_neg hlong]
      exact ih (Nat.not_lt.mp hlong) (by omega)

/-- A question ends four bytes behind its name exactly if the text of the name is not too long. -/
theorem parseQuestion_of_nameAt (h : NameAt payload offset labels stop)
    (hlen : payload.length < 2 ^ 63) :
    Ensures (parseQuestion payload offset) fun question =>
      ((nameText labels).utf8ByteSize ≤ maxDnsNameLen → question.offset = stop + 4) ∧
      (maxDnsNameLen < (nameText labels).utf8ByteSize → question.offset < stop + 4) := by
  have hstop := h.stop_le.2
  refine (labelsLoop_of_nameAt h hlen (Nat.zero_le _) (by omega)).bind fun parsed hparsed => ?_
  obtain ⟨hshort, hlong⟩ := hparsed
  -- a name that is too long ends the loop within it
  have hle : parsed.2 ≤ stop := by
    rcases Nat.lt_or_ge maxDnsNameLen (labels.foldl pushLabel "").utf8ByteSize with h | h
    · exact (hlong h).le
    · exact (congrArg Prod.snd (hshort h)).le
  have hoffset : ((nameText labels).utf8ByteSize ≤ maxDnsNameLen →
      saturatingAdd parsed.2 4 = stop + 4) ∧ (maxDnsNameLen < (nameText labels).utf8ByteSize →
      saturatingAdd parsed.2 4 < stop + 4) := by
    rw [saturatingAdd_eq (by omega)]
    refine ⟨fun h => ?_, fun h => Nat.add_lt_add_right (hlong h) 4⟩
    rw [hshort h]
  refine (ensures_add (by omega)).bind fun typeEnd htype => ?_
  refine Ensures.ite (fun hfits => ?_) fun _ => ensures_pure hoffset
  exact (be16At_ensures (by omega)).bind fun _ _ => ensures_pure hoffset

/-! ## All questions -/

section Questions

variable {n start afterName : ℕ}

theorem skipQuestions_succ_eq_some_iff :
    skipQuestions payload (n + 1) start = pure (some stop) ↔
      ∃ afterName, skipDnsName payload start = pure (some afterName) ∧
        skipQuestions payload n (afterName + 4) = pure (some stop) := by
  rw [skipQuestions, bind_eq_pure_iff]
  constructor
  · rintro ⟨_ | afterName, hname, hrest⟩
    · cases hrest
    · exact ⟨afterName, hname, hrest⟩
  · rintro ⟨afterName, hname, hrest⟩
    exact ⟨some afterName, hname, hrest⟩

theorem skipQuestions_zero_eq_some_iff :
    skipQuestions payload 0 start = pure (some stop) ↔ start = stop := by
  rw [skipQuestions, pure_inj, Option.some_inj]

/-- The last question comes behind all others. -/
theorem skipQuestions_succ_eq_some_iff' :
    skipQuestions payload (n + 1) start = pure (some stop) ↔
      ∃ offset, skipQuestions payload n start = pure (some offset) ∧
        ∃ afterName, skipDnsName payload offset = pure (some afterName) ∧ afterName + 4 = stop := by
  induction n generalizing start with
  | zero =>
    simp only [skipQuestions_succ_eq_some_iff, skipQuestions_zero_eq_some_iff, exists_eq_left']
  | succ n ih =>
    rw [skipQuestions_succ_eq_some_iff]
    simp only [ih, skipQuestions_succ_eq_some_iff (n := n)]
    constructor
    · rintro ⟨first, hfirst, offset, hoffset, hlast⟩
      exact ⟨offset, ⟨first, hfirst, hoffset⟩, hlast⟩
    · rintro ⟨offset, ⟨first, hfirst, hoffset⟩, hlast⟩
      exact ⟨first, hfirst, offset, hoffset, hlast⟩

theorem le_of_skipQuestions (hlen : payload.length < 2 ^ 63)
    (h : skipQuestions payload n start = pure (some stop)) : start ≤ stop := by
  induction n generalizing start with
  | zero => exact (skipQuestions_zero_eq_some_iff.mp h).le
  | succ n ih =>
    obtain ⟨afterName, hname, hrest⟩ := skipQuestions_succ_eq_some_iff.mp h
    obtain ⟨labels, hlabels⟩ := (skipDnsName_eq_some_iff hlen).mp hname
    have hlt := hlabels.stop_le.1
    have hle := ih hrest
    omega

theorem ShortNames.tail (h : ShortNames payload (n + 1) start)
    (hname : skipDnsName payload start = pure (some afterName)) :
    ShortNames payload n (afterName + 4) := by
  intro k hk offset labels stop hskip hlabels
  refine h (k + 1) (Nat.succ_lt_succ hk) offset labels stop ?_ hlabels
  exact skipQuestions_succ_eq_some_iff.mpr ⟨afterName, hname, hskip⟩

/-- Behind `n` names that are not too long, one more name decides where the questions end. -/
theorem questionsLoop_of_skip (hlen : payload.length < 2 ^ 63) {i : ℕ} {parsed : ParsedQuestion}
    (hskip : skipQuestions payload n parsed.offset = pure (some offset))
    (hshort : ShortNames payload n parsed.offset) (hname : NameAt payload offset labels stop)
    (hrounds : payload.length - parsed.offset < rounds) :
    Ensures (questionsLoop payload (i + n + 1) rounds i parsed) fun parsed =>
      ((nameText labels).utf8ByteSize ≤ maxDnsNameLen → parsed.offset = stop + 4) ∧
      (maxDnsNameLen < (nameText labels).utf8ByteSize → parsed.offset < stop + 4) := by
  induction n generalizing i parsed rounds with
  | zero =>
    -- the last question, after which the loop may stop for either of two reasons
    obtain rfl := skipQuestions_zero_eq_some_iff.mp hskip
    have hstop := hname.stop_le
    obtain ⟨rounds, rfl⟩ := Nat.exists_eq_succ_of_ne_zero (Nat.ne_zero_of_lt hrounds)
    obtain ⟨rounds, rfl⟩ := Nat.exists_eq_succ_of_ne_zero (show rounds ≠ 0 by omega)
    rw [questionsLoop, if_pos (by omega)]
    refine (parseQuestion_of_nameAt hname hlen).bind fun question hquestion => ?_
    rw [← offset_firstQuestion i question parsed] at hquestion
    refine Ensures.ite (fun _ => ensures_pure hquestion) fun _ => ?_
    rw [questionsLoop, if_neg (by omega)]
    exact ensures_pure hquestion
  | succ n ih =>
    obtain ⟨afterName, hfirst, hrest⟩ := skipQuestions_succ_eq_some_iff.mp hskip
    obtain ⟨first, hfirstName⟩ := (skipDnsName_eq_some_iff hlen).mp hfirst
    have hle := le_of_skipQuestions hlen hrest
    have hfirstLt := hfirstName.stop_le.1
    have hstop := hname.stop_le
    have htext := hshort 0 n.succ_pos parsed.offset first afterName rfl hfirstName
    obtain ⟨rounds, rfl⟩ := Nat.exists_eq_succ_of_ne_zero (Nat.ne_zero_of_lt hrounds)
    rw [questionsLoop, if_pos (by omega)]
    refine (parseQuestion_of_nameAt hfirstName hlen).bind fun question hquestion => ?_
    have hnext := (offset_firstQuestion i question parsed).trans (hquestion.1 htext)
    rw [if_neg (by omega), show i + (n + 1) + 1 = i + 1 + n + 1 by omega]
    rw [← hnext] at hrest
    exact ih hrest (hnext.symm ▸ hshort.tail hfirst) (by omega)

theorem parseQuestionsStartingAtHeader_of_skip (hlen : payload.length < 2 ^ 63) {count : UInt16}
    (hcount : count.toNat = n + 1) (hskip : skipQuestions payload n 12 = pure (some offset))
    (hshort : ShortNames payload n 12) (hname : NameAt payload offset labels stop) :
    Ensures (parseQuestionsStartingAtHeader payload count) fun parsed =>
      ((nameText labels).utf8ByteSize ≤ maxDnsNameLen → parsed.offset = stop + 4) ∧
      (maxDnsNameLen < (nameText labels).utf8ByteSize → parsed.offset < stop + 4) := by
  have hrounds : payload.length - (ParsedQuestion.mk none none 12).offset < payload.length + 1 :=
    Nat.lt_succ_of_le (Nat.sub_le _ _)
  have hloop := questionsLoop_of_skip hlen (i := 0) hskip hshort hname hrounds
  rwa [Nat.zero_add, ← hcount] at hloop

/-- If the ends agree, a name behind names that are not too long is not too long either. -/
theorem EndsAgree.short (hlen : payload.length < 2 ^ 63) {qdcount : UInt16}
    (h : EndsAgree payload qdcount) (hn : n < qdcount.toNat)
    (hskip : skipQuestions payload n 12 = pure (some offset)) (hshort : ShortNames payload n 12)
    (hname : NameAt payload offset labels stop) :
    (nameText labels).utf8ByteSize ≤ maxDnsNameLen := by
  have hcount : (UInt16.ofNat (n + 1)).toNat = n + 1 :=
    UInt16.toNat_ofNat_of_lt' (Nat.lt_of_le_of_lt hn qdcount.toNat_lt)
  have hend : skipQuestions payload (n + 1) 12 = pure (some (stop + 4)) :=
    skipQuestions_succ_eq_some_iff'.mpr
      ⟨offset, hskip, stop, (skipDnsName_eq_some_iff hlen).mpr ⟨labels, hname⟩, rfl⟩
  rw [← hcount] at hend
  obtain ⟨parsed, hparsed, hoffset⟩ :=
    h _ (UInt16.le_iff_toNat_le.mpr (hcount.trans_le hn)) _ hend
  have hends := (parseQuestionsStartingAtHeader_of_skip hlen hcount hskip hshort hname).of_eq_pure
    hparsed
  -- behind a longer name the two walks would part
  refine Nat.not_lt.mp fun hlong => ?_
  exact absurd hoffset (hends.2 hlong).ne

/-- At every count up to that of the header, the questions end where they are skipped to exactly if
none of them has a name of more than 253 bytes. The payload is any that a slice can hold (`hlen`),
and the count any number, also one beyond the questions that are there. With a longer name the one
walk gives up, and the other goes on behind it. -/
theorem endsAgree_iff (hlen : payload.length < 2 ^ 63) (qdcount : UInt16) :
    EndsAgree payload qdcount ↔ ShortNames payload qdcount.toNat 12 := by
  constructor
  · intro h k hk
    -- the first long name puts the two ends apart, and before it they agree
    induction k using Nat.strongRecOn with
    | ind k ih =>
      intro offset labels stop hskip hname
      refine h.short hlen hk hskip (fun j hj => ih j hj (hj.trans hk)) hname
  · intro h count hle stop hskip
    have hcount := UInt16.le_iff_toNat_le.mp hle
    rcases hn : count.toNat with _ | n
    · rw [hn, skipQuestions_zero_eq_some_iff] at hskip
      rw [parseQuestionsStartingAtHeader, hn, questionsLoop, if_neg (Nat.lt_irrefl 0)]
      exact ensures_pure hskip
    · rw [hn] at hskip
      obtain ⟨offset, hbefore, afterName, hlast, rfl⟩ := skipQuestions_succ_eq_some_iff'.mp hskip
      obtain ⟨labels, hname⟩ := (skipDnsName_eq_some_iff hlen).mp hlast
      have hshort : ShortNames payload n 12 := fun k hk => h k (by omega)
      refine (parseQuestionsStartingAtHeader_of_skip hlen hn hbefore hshort hname).mono ?_
      exact fun parsed hends => hends.1 (h n (by omega) offset labels afterName hbefore hname)

end Questions

end Names

/-! ## A name of 320 bytes -/

/-- A question with five labels of 63 bytes. -/
def longQuestion : List UInt8 :=
  [0, 1, 0, 0, 0, 1, 0, 0, 0, 0, 0, 0] ++
    (List.replicate 5 (63 :: List.replicate 63 97)).flatten ++ [0, 0, 1, 0, 1]

theorem endsAgree_iff_longQuestion : longQuestion.length < 2 ^ 63 ∧
    (EndsAgree longQuestion 1 ↔ ShortNames longQuestion (1 : UInt16).toNat 12) :=
  have hlen : longQuestion.length < 2 ^ 63 := by decide +kernel
  ⟨hlen, endsAgree_iff hlen 1⟩

/-- The name is skipped to 333, but it is collected up to its fourth label only. -/
theorem not_endsAgree_longQuestion :
    skipQuestions longQuestion 1 12 = pure (some 337) ∧
      (parseQuestionsStartingAtHeader longQuestion 1).map ParsedQuestion.offset = pure 208 ∧
      ¬ EndsAgree longQuestion 1 := by
  have hskip : skipQuestions longQuestion 1 12 = pure (some 337) := by decide +kernel
  have hparse : (parseQuestionsStartingAtHeader longQuestion 1).map ParsedQuestion.offset =
      pure 208 := by decide +kernel
  refine ⟨hskip, hparse, fun h => ?_⟩
  obtain ⟨parsed, hparsed, hoffset⟩ := h 1 (by decide) 337 hskip
  rw [hparsed] at hparse
  exact absurd (hoffset.symm.trans (pure_inj.mp hparse)) (by decide)

end Dns

end RustNet
