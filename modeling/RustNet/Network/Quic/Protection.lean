import RustNet.Network.Quic.Frames

/-!
# Packet protection of Initial packets

How `decrypt_client_initial_packet` and `decrypt_server_initial_packet` derive keys from the
destination connection ID, remove the header protection and open the payload. The cryptographic
primitives come from other libraries and are a parameter; of them only the documented lengths of
their outputs are used.

## Main results

* `Quic.tryDecryptInitialWithSecret_ensures`: no packet makes the decryption fail.
-/

namespace RustNet

/-- The primitives of `ring` and of `aes`. -/
class QuicCrypto where
  /-- `Salt::new(HKDF_SHA256, salt).extract(secret)`. -/
  extract (salt secret : List UInt8) : List UInt8
  /-- `Prk::expand` and `Okm::fill` for an output of `len` bytes. -/
  expand (prk info : List UInt8) (len : ℕ) : Option (List UInt8)
  /-- `Aes128::encrypt_block`. -/
  encryptBlock (key block : List UInt8) : List UInt8
  /-- `LessSafeKey::open_in_place` with AES-128-GCM. -/
  openInPlace (key nonce aad ciphertext : List UInt8) : Option (List UInt8)
  expand_length {prk info okm : List UInt8} {len : ℕ} :
    expand prk info len = some okm → okm.length = len
  encryptBlock_length {key block : List UInt8} :
    key.length = 16 → block.length = 16 → (encryptBlock key block).length = 16
  openInPlace_length {key nonce aad ciphertext plaintext : List UInt8} :
    openInPlace key nonce aad ciphertext = some plaintext →
      plaintext.length + 16 = ciphertext.length

/-- Primitives that derive no key. -/
@[reducible]
def QuicCrypto.silent : QuicCrypto where
  extract _ _ := []
  expand _ _ _ := none
  encryptBlock _ block := block
  openInPlace _ _ _ _ := none
  expand_length h := nomatch h
  encryptBlock_length _ h := h
  openInPlace_length h := nomatch h

namespace Quic

open Checked

/-- A byte string literal of the source, which is the encoding of its characters. -/
def byteString (s : String) : List UInt8 := s.toUTF8.data.toList

/-- `INITIAL_SALT_V1`: with it and the client's identifier the keys of version 1's Initial packets
are made. -/
def initialSaltV1 : List UInt8 :=
  [0x38, 0x76, 0x2c, 0xf7, 0xf5, 0x59, 0x34, 0xb3, 0x4d, 0x17, 0x9a, 0xe6, 0xa4, 0xc8, 0x0c, 0xad,
    0xcc, 0xbb, 0x7f, 0x0a]

/-- `INITIAL_SALT_V2`: with it and the client's identifier the keys of version 2's Initial packets
are made. -/
def initialSaltV2 : List UInt8 :=
  [0x0d, 0xed, 0xe3, 0xde, 0xf7, 0x00, 0xa6, 0xdb, 0x81, 0x93, 0x81, 0xbe, 0x6e, 0x26, 0x9d, 0xcb,
    0xf9, 0xbd, 0x2e, 0xd9]

/-- `is_quic_v2`: the version has labels and a salt of its own for the keys. -/
def isQuicV2 (version : UInt32) : Bool := version == 0x6b3343cf

/-- `build_hkdf_label`: the length of the secret, the label with the prefix of TLS 1.3 and the
context, the last two behind their lengths. -/
def buildHkdfLabel (label context : List UInt8) (length : ℕ) : List UInt8 :=
  let fullLabel := byteString "tls13 " ++ label
  [UInt8.ofNat (length / 256), UInt8.ofNat (length % 256)] ++
    UInt8.ofNat fullLabel.length :: fullLabel ++
    UInt8.ofNat context.length :: context

section Keys

variable [QuicCrypto]

/-- `derive_secret` for an output of `len` bytes. -/
def deriveSecret (prk label : List UInt8) (len : ℕ) : Option (List UInt8) :=
  QuicCrypto.expand prk (buildHkdfLabel label [] len) len

/-- `derive_packet_protection_key`: the sixteen bytes of the key under which the payload is
encrypted. -/
def derivePacketProtectionKey (secret : List UInt8) (version : UInt32) : Option (List UInt8) :=
  deriveSecret secret (byteString (if isQuicV2 version then "quicv2 key" else "quic key")) 16

/-- `derive_packet_protection_iv`: the twelve bytes that are combined with the packet's number into
a nonce. -/
def derivePacketProtectionIv (secret : List UInt8) (version : UInt32) : Option (List UInt8) :=
  deriveSecret secret (byteString (if isQuicV2 version then "quicv2 iv" else "quic iv")) 12

/-- `derive_header_protection_key`: the sixteen bytes of the key that masks the packet's number and
the low bits of the first byte. -/
def deriveHeaderProtectionKey (secret : List UInt8) (version : UInt32) : Option (List UInt8) :=
  deriveSecret secret (byteString (if isQuicV2 version then "quicv2 hp" else "quic hp")) 16

/-- `aes_ecb_encrypt`: one block under a key of sixteen bytes; other lengths are an error. -/
def aesEcbEncrypt (key block : List UInt8) : Option (List UInt8) :=
  if key.length = 16 ∧ block.length = 16 then some (QuicCrypto.encryptBlock key block) else none

/-- The initialization vector with the packet number in its last eight bytes. -/
def packetNonce (iv : List UInt8) (packetNumber : ℕ) : List UInt8 :=
  List.zipWith (· ^^^ ·) iv ([0, 0, 0, 0] ++ BigEndian.bytes 8 packetNumber)

/-- The offset behind the connection IDs. -/
def skipConnectionIds (packet : List UInt8) : Checked (Option ℕ) := do
  if packet.length ≤ 5 then return none
  let dcidLen ← index packet 5
  let offset := 5 + (1 + dcidLen.toNat)
  if packet.length ≤ offset then return none
  let scidLen ← index packet offset
  let offset := offset + (1 + scidLen.toNat)
  if packet.length ≤ offset then return none
  return some offset

/-- The rest of `try_decrypt_initial_with_secret`, from the packet number on. -/
def openPacket (packet key iv hpKey : List UInt8) (pnOffset packetPayloadLength : ℕ) :
    Checked (Option (List UInt8)) := do
  let sampleOffset := pnOffset + 4
  if packet.length < sampleOffset + 16 then return none
  let sample ← slice packet sampleOffset (sampleOffset + 16)
  let some mask := aesEcbEncrypt hpKey sample | return none
  -- only the lower four bits of a long header are protected
  let first ← index packet 0
  let mask0 ← index mask 0
  let firstByte := first ^^^ (mask0 &&& 0x0f)
  let pnLength := (firstByte &&& 0x03).toNat + 1
  let pnBytes ← indices packet pnOffset pnLength
  let pnMask ← indices mask 1 pnLength
  let unmasked := List.zipWith (· ^^^ ·) pnBytes pnMask
  let nonce := packetNonce iv (BigEndian.value unmasked)
  let header ← slice packet 1 pnOffset
  let aad := firstByte :: (header ++ unmasked)
  let ciphertextOffset := pnOffset + pnLength
  -- a length below that of the packet number would underflow
  if packetPayloadLength < pnLength then return none
  let ciphertextLen ← sub packetPayloadLength pnLength
  if packet.length < ciphertextOffset + ciphertextLen then return none
  if ciphertextLen < 16 then return none
  let ciphertext ← slice packet ciphertextOffset (ciphertextOffset + ciphertextLen)
  return QuicCrypto.openInPlace key nonce aad ciphertext

/-- `try_decrypt_initial_with_secret`: the keys from the secret, the fields of the header up to the
length, and then the protected packet itself. -/
def tryDecryptInitialWithSecret (packet secret : List UInt8) (version : UInt32) :
    Checked (Option (List UInt8)) := do
  let some key := derivePacketProtectionKey secret version | return none
  let some iv := derivePacketProtectionIv secret version | return none
  let some hpKey := deriveHeaderProtectionKey secret version | return none
  let some offset ← skipConnectionIds packet | return none
  let some tokenLen ← readVarint packet offset | return none
  let offset := tokenLen.2 + tokenLen.1
  if packet.length < offset then return none
  let some packetPayloadLength ← readVarint packet offset | return none
  openPacket packet key iv hpKey packetPayloadLength.2 packetPayloadLength.1

/-- What `decrypt_client_initial_packet` and `decrypt_server_initial_packet` share. -/
def decryptInitialPacket (label : String) (packet dcid : List UInt8) (version : UInt32) :
    Checked (Option (List UInt8)) := do
  let salt := if isQuicV2 version then initialSaltV2 else initialSaltV1
  let initialSecret := QuicCrypto.extract salt dcid
  let some secret := deriveSecret initialSecret (byteString label) 32 | return none
  tryDecryptInitialWithSecret packet secret version

/-- `decrypt_client_initial_packet`: the packet opened with the secret of the client, which is made
under its own label. -/
def decryptClientInitialPacket (packet dcid : List UInt8) (version : UInt32) :
    Checked (Option (List UInt8)) :=
  decryptInitialPacket "client in" packet dcid version

/-- `decrypt_server_initial_packet`: the packet opened with the secret of the server, which is made
under its own label. -/
def decryptServerInitialPacket (packet dcid : List UInt8) (version : UInt32) :
    Checked (Option (List UInt8)) :=
  decryptInitialPacket "server in" packet dcid version

/-! ## Safety -/

section Safety

variable {packet : List UInt8}

theorem aesEcbEncrypt_length {key block mask : List UInt8}
    (h : aesEcbEncrypt key block = some mask) : mask.length = 16 := by
  unfold aesEcbEncrypt at h
  split_ifs at h with hlen
  rw [← Option.some.inj h]
  exact QuicCrypto.encryptBlock_length hlen.1 hlen.2

omit [QuicCrypto] in
theorem skipConnectionIds_ensures (packet : List UInt8) :
    Ensures (skipConnectionIds packet) fun offset? =>
      ∀ offset, offset? = some offset → 5 ≤ offset ∧ offset ≤ packet.length := by
  unfold skipConnectionIds
  refine Ensures.ite (fun _ => ensures_none) fun hdcid => ?_
  refine (ensures_index (Nat.lt_of_not_le hdcid)).bind fun dcidLen _ => ?_
  refine Ensures.ite (fun _ => ensures_none) fun hscid => ?_
  refine (ensures_index (Nat.lt_of_not_le hscid)).bind fun scidLen _ => ?_
  refine Ensures.ite (fun _ => ensures_none) fun hend => ensures_some ?_
  omega

/-- From the packet number on: the sample lies behind it, so its bytes are there as well. -/
theorem openPacket_ensures {key iv hpKey : List UInt8} {pnOffset packetPayloadLength : ℕ}
    (h : 1 ≤ pnOffset) :
    Ensures (openPacket packet key iv hpKey pnOffset packetPayloadLength) fun _ => True := by
  have hnone : Ensures (pure none : Checked (Option (List UInt8))) fun _ => True :=
    ensures_pure trivial
  unfold openPacket
  refine Ensures.ite (fun _ => hnone) fun hsample => ?_
  refine (ensures_slice (Nat.le_add_right _ _) (Nat.not_lt.mp hsample)).bind fun sample _ => ?_
  rcases hmask : aesEcbEncrypt hpKey sample with _ | mask
  · exact hnone
  have hmasklen := aesEcbEncrypt_length hmask
  refine (ensures_index (by omega)).bind fun first _ => ?_
  refine (ensures_index (by omega)).bind fun mask0 _ => ?_
  -- a packet number of four bytes at most lies before the sample
  have hpn : ((first ^^^ mask0 &&& 0x0f) &&& 0x03).toNat ≤ 3 := by
    rw [UInt8.toNat_and]
    exact Nat.and_le_right
  refine (ensures_indices (by omega)).bind fun pnBytes _ => ?_
  refine (ensures_indices (by omega)).bind fun pnMask _ => ?_
  refine (ensures_slice h (by omega)).bind fun header _ => ?_
  refine Ensures.ite (fun _ => hnone) fun hpayload => ?_
  refine (ensures_sub (Nat.not_lt.mp hpayload)).bind fun ciphertextLen _ => ?_
  refine Ensures.ite (fun _ => hnone) fun hciphertext => ?_
  refine Ensures.ite (fun _ => hnone) fun _ => ?_
  exact (ensures_slice (Nat.le_add_right _ _) (Nat.not_lt.mp hciphertext)).bind fun _ _ =>
    ensures_pure trivial

/-- No packet makes the decryption fail, whatever the keys. -/
theorem tryDecryptInitialWithSecret_ensures (packet secret : List UInt8) (version : UInt32) :
    Ensures (tryDecryptInitialWithSecret packet secret version) fun _ => True := by
  have hnone : Ensures (pure none : Checked (Option (List UInt8))) fun _ => True :=
    ensures_pure trivial
  unfold tryDecryptInitialWithSecret
  rcases derivePacketProtectionKey secret version with _ | key
  · exact hnone
  rcases derivePacketProtectionIv secret version with _ | iv
  · exact hnone
  rcases deriveHeaderProtectionKey secret version with _ | hpKey
  · exact hnone
  refine (skipConnectionIds_ensures packet).bindOption (fun offset hoffset => ?_) hnone
  refine (readVarint_ensures hoffset.2).bindOption (fun tokenLen _ => ?_) hnone
  refine Ensures.ite (fun _ => hnone) fun htoken => ?_
  refine (readVarint_ensures (Nat.not_lt.mp htoken)).bindOption (fun length hlength => ?_) hnone
  exact openPacket_ensures (Nat.one_le_of_lt hlength.1)

theorem decryptInitialPacket_ensures (label : String) (packet dcid : List UInt8)
    (version : UInt32) :
    Ensures (decryptInitialPacket label packet dcid version) fun _ => True := by
  unfold decryptInitialPacket
  dsimp only
  rcases deriveSecret _ (byteString label) 32 with _ | secret
  · exact ensures_pure trivial
  · exact tryDecryptInitialWithSecret_ensures packet secret version

end Safety

end Keys

end Quic

end RustNet
