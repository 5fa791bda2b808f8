import RustNet.Foundations.Checked
import RustNet.Foundations.Search
import RustNet.Network.Parser.LinkLayer
import RustNet.Network.Tls.HostName

/-!
# DHCP options

`analyze_dhcp` and the loop over the options behind the fixed part of a message. An option is its
code, its length in one byte and its data; a pad is one byte without a length. The options end with
a marker, with the packet, or with an option that is cut off.

An option that is there twice replaces what the first one said, if it says anything itself: a
message type without a byte and a host name that is not UTF-8 are passed over.

## Main definitions

* `Dhcp.parseDhcpOptions`, `Dhcp.analyzeDhcp`;
* `Dhcp.Item`, `Dhcp.Ending`: what a sequence of options is made of;
* `Dhcp.decodeItems`: what a sequence of options says.

## Main results

* `Dhcp.exists_items`: every sequence of bytes is options with an ending;
* `Dhcp.parseDhcpOptions_items`: the loop reads off what the options in front of the ending say;
* `Dhcp.Message.analyzeDhcp_encode`: what is reported of a whole message.
-/

namespace RustNet

deriving instance DecidableEq for DhcpMessageType

namespace Dhcp

open Checked

/-! ## Parsing -/

/-- `MIN_DHCP_SIZE`: the fixed part of a message with its cookie. -/
def minDhcpSize : ℕ := 240

/-- `DHCP_MAGIC_COOKIE`, which stands in front of the options. -/
def dhcpMagicCookie : List UInt8 := [0x63, 0x82, 0x53, 0x63]

/-- `DHCP_OPT_HOSTNAME`: the option with the name of the client. -/
def dhcpOptHostname : UInt8 := 12

/-- `DHCP_OPT_MESSAGE_TYPE`: the option that every message has. -/
def dhcpOptMessageType : UInt8 := 53

/-- `DHCP_OPT_END`: the options end here, whatever follows. -/
def dhcpOptEnd : UInt8 := 255

/-- `parse_message_type`: the eight types of RFC 2131, and the number of any other. -/
def parseMessageType (value : UInt8) : DhcpMessageType :=
  if value = 1 then .discover
  else if value = 2 then .offer
  else if value = 3 then .request
  else if value = 4 then .decline
  else if value = 5 then .ack
  else if value = 6 then .nak
  else if value = 7 then .release
  else if value = 8 then .inform
  else .unknown value

/-- The variables of `parse_dhcp_options`: what the options have said so far. -/
structure Found where
  messageType : Option DhcpMessageType
  hostname : Option String

/-- The match on `opt_code`: a later option takes the place of an earlier one, but a name that is no
text leaves it. -/
def readOption (optCode optLen : UInt8) (optData : List UInt8) (found : Found) : Checked Found :=
  if optCode = dhcpOptMessageType ∧ 1 ≤ optLen then do
    let value ← index optData 0
    return { found with messageType := some (parseMessageType value) }
  else if optCode = dhcpOptHostname then
    return { found with hostname := (fromUtf8 optData).or found.hostname }
  else return found

/-- The loop of `parse_dhcp_options`, with the rounds that are left to it. -/
def optionsLoop (options : List UInt8) : ℕ → ℕ → Found → Checked Found
  | 0, _, _ => throw .endless
  | rounds + 1, offset, found => do
    if offset < options.length then do
      let optCode ← index options offset
      if optCode = dhcpOptEnd then return found
      let lenAt ← add offset 1
      -- a pad has no length
      if optCode = 0 then optionsLoop options rounds lenAt found
      else do
        if options.length ≤ lenAt then return found
        let optLen ← index options lenAt
        let dataStart ← add offset 2
        let dataEnd ← add dataStart optLen.toNat
        if options.length < dataEnd then return found
        let optData ← slice options dataStart dataEnd
        let found ← readOption optCode optLen optData found
        optionsLoop options rounds dataEnd found
    else return found

/-- `parse_dhcp_options`: nothing without a message type. -/
def parseDhcpOptions (options : List UInt8) :
    Checked (Option (DhcpMessageType × Option String)) := do
  let found ← optionsLoop options (options.length + 1) 0 ⟨none, none⟩
  return found.messageType.map fun messageType => (messageType, found.hostname)

/-- `format_mac`: six bytes in hexadecimal, with colons between them. -/
def formatMac (bytes : List UInt8) : Checked String := do
  let octets ← indices bytes 0 6
  return ":".intercalate (octets.map hexByte)

/-- `analyze_dhcp`: the message type and the name from the options, the address of the client from
the fixed part. -/
def analyzeDhcp (payload : List UInt8) : Checked (Option DhcpInfo) := do
  if payload.length < minDhcpSize then return none
  let cookie ← slice payload 236 240
  if cookie ≠ dhcpMagicCookie then return none
  let chaddr ← slice payload 28 34
  let clientMac ← formatMac chaddr
  let options ← sliceFrom payload 240
  let parsed ← parseDhcpOptions options
  return parsed.map fun (messageType, hostname) => ⟨messageType, hostname, some clientMac⟩

/-! ## Options -/

/-- An option with its data. -/
structure Tlv where
  code : UInt8
  data : List UInt8
  code_ne_pad : code ≠ 0
  code_ne_end : code ≠ dhcpOptEnd
  length_le : data.length ≤ 255

/-- A pad or an option. -/
inductive Item
  | pad
  | tlv (option : Tlv)

/-- What comes behind the last option. -/
inductive Ending
  /-- The marker, with anything behind it. -/
  | marker (rest : List UInt8)
  /-- The end of the packet. -/
  | packetEnd
  /-- An option of which there is only the code. -/
  | codeOnly (code : UInt8) (hpad : code ≠ 0) (hend : code ≠ dhcpOptEnd)
  /-- An option with less data than it declares. -/
  | cutOff (code len : UInt8) (data : List UInt8) (hpad : code ≠ 0) (hend : code ≠ dhcpOptEnd)
    (hdata : data.length < len.toNat)

/-- The bytes of an item. -/
def Item.encode : Item → List UInt8
  | pad => [0]
  | tlv option => option.code :: UInt8.ofNat option.data.length :: option.data

/-- The bytes of the ending. -/
def Ending.encode : Ending → List UInt8
  | marker rest => dhcpOptEnd :: rest
  | packetEnd => []
  | codeOnly code _ _ => [code]
  | cutOff code len data _ _ _ => code :: len :: data

/-- The bytes of a sequence of options. -/
def encodeItems (items : List Item) (ending : Ending) : List UInt8 :=
  items.flatMap Item.encode ++ ending.encode

/-- The message type that an item says. -/
def Item.messageType : Item → Option DhcpMessageType
  | tlv option =>
    if option.code = dhcpOptMessageType then option.data.head?.map parseMessageType else none
  | pad => none

/-- The host name that an item says. -/
def Item.hostname : Item → Option String
  | tlv option => if option.code = dhcpOptHostname then fromUtf8 option.data else none
  | pad => none

/-- What a sequence of options says: the last message type, without which there is nothing, and the
last host name. -/
def decodeItems (items : List Item) : Option (DhcpMessageType × Option String) :=
  (items.filterMap Item.messageType).getLast?.map fun messageType =>
    (messageType, (items.filterMap Item.hostname).getLast?)

/-! ## Every sequence of bytes -/

/-- Every sequence of bytes is options with an ending. -/
theorem exists_items (options : List UInt8) :
    ∃ items ending, options = encodeItems items ending := by
  induction hn : options.length using Nat.strongRecOn generalizing options with
  | ind n ih =>
    rcases options with _ | ⟨code, rest⟩
    · exact ⟨[], .packetEnd, rfl⟩
    · by_cases hend : code = dhcpOptEnd
      · exact ⟨[], .marker rest, by rw [hend]; rfl⟩
      · by_cases hpad : code = 0
        · have hlt : rest.length < n := by rw [← hn]; exact Nat.lt_succ_self _
          obtain ⟨items, ending, rfl⟩ := ih rest.length hlt rest rfl
          exact ⟨.pad :: items, ending, by rw [hpad]; rfl⟩
        · rcases rest with _ | ⟨len, data⟩
          · exact ⟨[], .codeOnly code hpad hend, rfl⟩
          -- an option with a length, which the bytes may fall short of
          · by_cases hdata : data.length < len.toNat
            · exact ⟨[], .cutOff code len data hpad hend hdata, rfl⟩
            · have hlen : (data.take len.toNat).length = len.toNat := by
                rw [List.length_take]
                omega
              obtain ⟨items, ending, hrest⟩ := ih (data.drop len.toNat).length
                (by rw [← hn, List.length_drop, List.length_cons, List.length_cons]; omega) _ rfl
              refine ⟨.tlv ⟨code, data.take len.toNat, hpad, hend, ?_⟩ :: items, ending, ?_⟩
              · rw [hlen]
                exact Nat.le_of_lt_succ len.toNat_lt
              · rw [encodeItems, List.flatMap_cons, List.append_assoc, ← encodeItems, ← hrest]
                simp only [Item.encode, hlen, UInt8.ofNat_toNat, List.cons_append,
                  List.take_append_drop]

/-! ## The loop -/

section Loop

variable {options rest : List UInt8} {rounds offset : ℕ} {found : Found}

/-- What has been found after an item. -/
def Found.after (found : Found) (item : Item) : Found where
  messageType := item.messageType.or found.messageType
  hostname := item.hostname.or found.hostname

theorem foldl_after (items : List Item) (found : Found) :
    items.foldl Found.after found =
      { messageType := (items.filterMap Item.messageType).getLast?.or found.messageType
        hostname := (items.filterMap Item.hostname).getLast?.or found.hostname } := by
  rw [← Search.foldl_or, ← Search.foldl_or]
  induction items generalizing found with
  | nil => rfl
  | cons item items ih => exact ih (found.after item)

theorem Tlv.toNat_length (option : Tlv) :
    (UInt8.ofNat option.data.length).toNat = option.data.length :=
  UInt8.toNat_ofNat_of_lt' (Nat.lt_succ_of_le option.length_le)

/-- An option with its data is read as what it says. -/
theorem readOption_tlv (option : Tlv) (found : Found) :
    readOption option.code (UInt8.ofNat option.data.length) option.data found =
      pure (found.after (.tlv option)) := by
  have htoNat := option.toNat_length
  obtain ⟨code, data, hpad, hend, hlength⟩ := option
  dsimp only at htoNat ⊢
  rw [readOption, Found.after, Item.messageType, Item.hostname]
  -- the type needs a byte of data, and every other option may be empty
  by_cases htype : code = dhcpOptMessageType
  · have hother : code ≠ dhcpOptHostname := by rw [htype]; decide
    rcases data with _ | ⟨value, data⟩
    · rw [if_neg fun h => absurd h.2 (by decide), if_neg hother, if_pos htype, if_neg hother]
      rfl
    · have hpositive : (1 : UInt8) ≤ UInt8.ofNat (value :: data).length := by
        rw [UInt8.le_iff_toNat_le, htoNat]
        exact Nat.le_add_left 1 _
      rw [if_pos ⟨htype, hpositive⟩, (At.start _).index, pure_bind', if_pos htype, if_neg hother]
      rfl
  · rw [if_neg fun h => htype h.1, if_neg htype]
    split_ifs <;> rfl

/-- One round of the loop, over an item. -/
theorem optionsLoop_item {item : Item} (hlen : options.length < 2 ^ 63)
    (h : At options offset (item.encode ++ rest)) :
    optionsLoop options (rounds + 1) offset found =
      optionsLoop options rounds (offset + item.encode.length) (found.after item) := by
  have hlength := h.length_eq
  rw [List.length_append] at hlength
  rcases item with _ | option
  -- a pad is its code alone
  · have hpad : At options offset (0 :: rest) := h
    have hbound : offset < options.length := by
      rw [hlength, Item.encode, List.length_singleton]
      omega
    rw [optionsLoop, if_pos hbound, hpad.index, pure_bind', if_neg (by decide),
      add_eq (by omega), pure_bind', if_pos rfl]
    rfl
  · have hdata := option.length_le
    have hcode : At options offset
        (option.code :: UInt8.ofNat option.data.length :: (option.data ++ rest)) := h
    rw [Item.encode, List.length_cons, List.length_cons] at hlength
    rw [optionsLoop, if_pos (by omega), hcode.index, pure_bind', if_neg option.code_ne_end,
      add_eq (by omega), pure_bind', if_neg option.code_ne_pad, if_neg (by omega),
      hcode.next.index, pure_bind', add_eq (by omega), pure_bind', option.toNat_length,
      add_eq (by omega), pure_bind', if_neg (by omega), hcode.next.next.slice, pure_bind',
      readOption_tlv, pure_bind', Item.encode, List.length_cons, List.length_cons, Nat.add_assoc,
      Nat.add_comm 2]

/-- The loop ends at the ending. -/
theorem optionsLoop_ending {ending : Ending} (hlen : options.length < 2 ^ 63)
    (h : At options offset ending.encode) :
    optionsLoop options (rounds + 1) offset found = pure found := by
  have hlength := h.length_eq
  rw [optionsLoop]
  rcases ending with rest | _ | ⟨code, hpad, hend⟩ | ⟨code, len, data, hpad, hend, hdata⟩
  -- the marker
  · have hmarker : At options offset (dhcpOptEnd :: rest) := h
    rw [Ending.encode, List.length_cons] at hlength
    rw [if_pos (by omega), hmarker.index, pure_bind', if_pos rfl]
  -- the end of the packet
  · rw [Ending.encode, List.length_nil] at hlength
    rw [if_neg (by omega)]
  -- a code without a length
  · have hcode : At options offset [code] := h
    rw [Ending.encode, List.length_singleton] at hlength
    rw [if_pos (by omega), hcode.index, pure_bind', if_neg hend, add_eq (by omega), pure_bind',
      if_neg hpad, if_pos (by omega)]
  -- less data than the length says
  · have hcode : At options offset (code :: len :: data) := h
    have hbyte := len.toNat_lt
    rw [Ending.encode, List.length_cons, List.length_cons] at hlength
    rw [if_pos (by omega), hcode.index, pure_bind', if_neg hend, add_eq (by omega), pure_bind',
      if_neg hpad, if_neg (by omega), hcode.next.index, pure_bind', add_eq (by omega), pure_bind',
      add_eq (by omega), pure_bind', if_pos (by omega)]

/-- The loop over a sequence of options. -/
theorem optionsLoop_items {items : List Item} {ending : Ending} (hlen : options.length < 2 ^ 63)
    (h : At options offset (encodeItems items ending))
    (hrounds : (encodeItems items ending).length < rounds) :
    optionsLoop options rounds offset found = pure (items.foldl Found.after found) := by
  induction items generalizing rounds offset found with
  | nil =>
    obtain ⟨rounds, rfl⟩ := Nat.exists_eq_add_of_le' (Nat.one_le_of_lt hrounds)
    exact optionsLoop_ending hlen h
  | cons item items ih =>
    have hcons : encodeItems (item :: items) ending =
        item.encode ++ encodeItems items ending := by
      rw [encodeItems, List.flatMap_cons, List.append_assoc, ← encodeItems]
    -- an item takes at least a byte, and so a round
    have hitem : 1 ≤ item.encode.length := by
      rcases item with _ | option <;> simp [Item.encode]
    rw [hcons, List.length_append] at hrounds
    rw [hcons] at h
    obtain ⟨rounds, rfl⟩ := Nat.exists_eq_add_of_le' (show 1 ≤ rounds by omega)
    rw [optionsLoop_item hlen h, ih h.skip (by omega), List.foldl_cons]

theorem parseDhcpOptions_eq {items : List Item} {ending : Ending}
    (hlen : (encodeItems items ending).length < 2 ^ 63) :
    parseDhcpOptions (encodeItems items ending) = pure (decodeItems items) := by
  rw [parseDhcpOptions, optionsLoop_items hlen (At.start _) (Nat.lt_succ_self _), pure_bind',
    foldl_after, Option.or_none, Option.or_none]
  rfl

/-- The options in front of the ending are read off, and the loop ends for all bytes. Of the options
the message type and the host name are kept, each as it was last given; an ending is the end option,
the end of the data, or an option that is cut off. Nothing is asked of the bytes but that a packet
can hold them. -/
theorem parseDhcpOptions_items :
    (∀ items ending, (encodeItems items ending).length < 2 ^ 63 →
      parseDhcpOptions (encodeItems items ending) = pure (decodeItems items)) ∧
    ∀ options : List UInt8, options.length < 2 ^ 63 →
      ∃ parsed, parseDhcpOptions options = pure parsed := by
  refine ⟨fun items ending hlen => parseDhcpOptions_eq hlen, fun options hlen => ?_⟩
  obtain ⟨items, ending, rfl⟩ := exists_items options
  exact ⟨_, parseDhcpOptions_eq hlen⟩

/-! ## Messages -/

/-- A DHCP message: the fixed part with the hardware address of the client, and the options. -/
structure Message where
  front : List UInt8
  chaddr : List UInt8
  middle : List UInt8
  items : List Item
  ending : Ending
  length_front : front.length = 28
  length_chaddr : chaddr.length = 6
  length_middle : middle.length = 202

namespace Message

/-- The bytes of a message. -/
def encode (message : Message) : List UInt8 :=
  message.front ++ (message.chaddr ++ (message.middle ++
    (dhcpMagicCookie ++ encodeItems message.items message.ending)))

/-- A message is reported with what its options say and the address of the client. -/
theorem analyzeDhcp_encode (message : Message) (hlen : message.encode.length < 2 ^ 63) :
    analyzeDhcp message.encode = pure ((decodeItems message.items).map fun said =>
      ⟨said.1, said.2, some (":".intercalate (message.chaddr.map hexByte))⟩) := by
  -- the parts of the message by their offsets
  have hchaddr : At message.encode 28 (message.chaddr ++ (message.middle ++
      (dhcpMagicCookie ++ encodeItems message.items message.ending))) := by
    rw [← Nat.zero_add 28]
    exact (At.start message.encode).skip_of_length message.length_front
  have hmagic : At message.encode 236
      (dhcpMagicCookie ++ encodeItems message.items message.ending) :=
    (hchaddr.skip_of_length message.length_chaddr).skip_of_length message.length_middle
  have hoptions : At message.encode 240 (encodeItems message.items message.ending) := hmagic.skip
  have hsize := hoptions.length_eq
  have hcookie : slice message.encode 236 240 = pure dhcpMagicCookie := hmagic.slice
  -- only the first six bytes of the hardware address are read
  have hslice : slice message.encode 28 34 = pure message.chaddr := by
    have h := hchaddr.slice
    rwa [message.length_chaddr] at h
  have hmac : indices message.chaddr 0 6 = pure message.chaddr := by
    have hall : At message.chaddr 0 (message.chaddr ++ []) := by
      rw [List.append_nil]
      exact At.start _
    have h := hall.indices
    rwa [message.length_chaddr] at h
  rw [analyzeDhcp, if_neg (by rw [minDhcpSize]; omega), hcookie, pure_bind',
    if_neg (not_not.mpr rfl), hslice, pure_bind', formatMac, hmac, pure_bind', pure_bind',
    hoptions.sliceFrom, pure_bind', parseDhcpOptions_eq (by omega), pure_bind']

end Message

end Loop

/-- A message type in one byte. -/
def Tlv.ofMessageType (value : UInt8) : Tlv where
  code := 53
  data := [value]
  code_ne_pad := by decide
  code_ne_end := by decide
  length_le := by simp

/-- An option 53 without a byte. -/
def Tlv.noMessageType : Tlv where
  code := 53
  data := []
  code_ne_pad := by decide
  code_ne_end := by decide
  length_le := by decide

/-- A pad between two message types, of which the second counts. -/
theorem parseDhcpOptions_repeated :
    parseDhcpOptions [53, 1, 1, 0, 53, 1, 3, 255] = pure (some (.request, none)) := by
  have h := parseDhcpOptions_items.1
    [.tlv (.ofMessageType 1), .pad, .tlv (.ofMessageType 3)] (.marker []) (by decide)
  exact h

/-- A message type of no bytes leaves the one before it in place. -/
theorem parseDhcpOptions_empty :
    encodeItems [.tlv (.ofMessageType 1), .tlv .noMessageType] (.marker []) =
        [53, 1, 1, 53, 0, 255] ∧
      parseDhcpOptions [53, 1, 1, 53, 0, 255] = pure (some (.discover, none)) := by
  refine ⟨rfl, rfl⟩

end Dhcp

end RustNet
