import RustNet.Network.Ssh.Analysis

/-!
# Where an SSH state is looked for

`analyze_ssh` takes the state of a connection from the first packet header in a payload whose
message shows one. A header is six bytes long, and the loop over the offsets stops one short of the
last offset at which it fits.

## Main definitions

* `Ssh.headerState`: the state that a header at an offset shows;
* `Ssh.firstHeaderState`: that of the first one in a payload.

## Main results

* `Ssh.analyzeSsh_connectionState_iff`: the state is that of the first header unless the only one is
  in the last six bytes.
-/

namespace RustNet

deriving instance DecidableEq for SshConnectionState

namespace Ssh

/-- The state that the header at `offset` shows, if there is a valid one. -/
def headerState (payload : List UInt8) (offset : ℕ) : Option SshConnectionState :=
  if isValidSshPacketAtOffset payload offset then
    messageState (payload.getD (offset + 5) 0).toNat
  else none

/-- The state that the first header in a payload shows, of all that fit in it. -/
def firstHeaderState (payload : List UInt8) : Option SshConnectionState :=
  (List.range (payload.length + 1 - 6)).findSome? (headerState payload)

/-- The last six bytes are a header that shows a state, and there is none before them. -/
def OnlyLastHeader (payload : List UInt8) : Prop :=
  (headerState payload (payload.length - 6)).isSome ∧
    ∀ offset < payload.length - 6, headerState payload offset = none

section Scan

variable {payload : List UInt8} {isOutgoing : Bool} {info : SshInfo}

/-- A header is there only if it fits. -/
theorem headerState_of_length_lt {offset : ℕ} (h : payload.length < offset + 6) :
    headerState payload offset = none := by
  have hinvalid : isValidSshPacketAtOffset payload offset = false := by
    simp only [isValidSshPacketAtOffset, Program.isValidSshPacketAtOffset, Id.run_bind,
      Access.run_add, if_pos h, Id.run_pure]
  rw [headerState, hinvalid, if_neg Bool.false_ne_true]

/-- The loop looks for headers. -/
theorem packetState_eq (payload : List UInt8) :
    packetState payload = (List.range (payload.length - 6)).findSome? (headerState payload) := by
  have hstate (i : ℕ) : Id.run (Program.stateAt payload i) = headerState payload i := by
    simp only [Program.stateAt, Id.run_bind, Access.run_add, Access.run_ite, Id.run_pure]
    by_cases hshort : payload.length < i + 6
    · rw [if_pos hshort, headerState_of_length_lt hshort]
    · rw [if_neg hshort]
      rfl
  unfold packetState Program.packetState
  rw [List.idRun_findSomeM?]
  exact congrArg (List.findSome? · _) (funext hstate)

theorem headerState_ne_banner (offset : ℕ) : headerState payload offset ≠ some .banner := by
  rw [headerState]
  split_ifs
  · rw [messageState]
    split_ifs <;> simp
  · simp

/-- The loop leaves out the last offset. -/
theorem firstHeaderState_eq (payload : List UInt8) :
    firstHeaderState payload =
      (packetState payload).or (headerState payload (payload.length - 6)) := by
  by_cases hlen : payload.length < 6
  -- no header fits
  · have hshort : payload.length + 1 - 6 = 0 ∧ payload.length - 6 = 0 := by omega
    rw [firstHeaderState, packetState_eq, hshort.1, hshort.2, headerState_of_length_lt (by omega)]
    rfl
  -- the last offset at which a header fits is the one that the loop leaves out
  · have hsucc : payload.length + 1 - 6 = payload.length - 6 + 1 := by omega
    rw [firstHeaderState, packetState_eq, hsucc, List.range_succ, List.findSome?_append,
      List.findSome?_singleton]

theorem packetState_eq_none_iff :
    packetState payload = none ↔
      ∀ offset < payload.length - 6, headerState payload offset = none := by
  rw [packetState_eq, List.findSome?_eq_none_iff]
  simp only [List.mem_range]

theorem analyzeSsh_connectionState (h : analyzeSsh payload isOutgoing = some info) :
    info.connectionState = (packetState payload).getD .banner := by
  rw [analyzeSsh_eq_ite] at h
  split_ifs at h
  obtain rfl := Option.some.inj h
  rfl

/-- The state is that of the first header in the payload, unless the only one is at its end. The
payload is any that is read as SSH (`h`). The loop over its offsets stops one short of the last
place at which a header fits; where it finds none, the state stays at the banner. -/
theorem analyzeSsh_connectionState_iff (h : analyzeSsh payload isOutgoing = some info) :
    info.connectionState = (firstHeaderState payload).getD .banner ↔ ¬ OnlyLastHeader payload := by
  rw [analyzeSsh_connectionState h, firstHeaderState_eq, OnlyLastHeader, ← packetState_eq_none_iff]
  rcases hloop : packetState payload with _ | state
  · rcases hlast : headerState payload (payload.length - 6) with _ | last
    · simp
    · -- the loop finds nothing, and what it leaves out is not the default
      have hbanner : last ≠ .banner := fun heq => headerState_ne_banner _ (heq ▸ hlast)
      simpa using hbanner.symm
  · simp

end Scan

/-- A header with one byte behind it is found. -/
theorem analyzeSsh_kexInit :
    (analyzeSsh [0, 0, 0, 8, 4, 20, 0] true).map SshInfo.connectionState = some .keyExchange := by
  obtain ⟨info, hinfo⟩ : ∃ info, analyzeSsh [0, 0, 0, 8, 4, 20, 0] true = some info :=
    Option.isSome_iff_exists.mp (by decide +kernel)
  have hstate := (analyzeSsh_connectionState_iff hinfo).mpr fun h => absurd h.1 (by decide)
  rw [hinfo, Option.map_some, hstate]
  decide +kernel

/-- The same header without that byte is taken for a payload and not looked at. -/
theorem analyzeSsh_kexInit_missed :
    isLikelySsh [0, 0, 0, 8, 4, 20] ∧ banners [0, 0, 0, 8, 4, 20] = [] ∧
      firstHeaderState [0, 0, 0, 8, 4, 20] = some .keyExchange ∧
      (analyzeSsh [0, 0, 0, 8, 4, 20] true).map SshInfo.connectionState = some .banner := by
  refine ⟨by decide, List.isEmpty_iff.mp ?_, ?_, ?_⟩ <;> decide +kernel

end Ssh

end RustNet
