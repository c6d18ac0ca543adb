import RoutingMesh.AttributeList
import RoutingMesh.DottedQuad
import RoutingMesh.KernelRoutes

/-!
# The messages that change the routes

`routing_manager_recompute` writes addresses as text, and `ip_route_netlink.c`
reads them with `inet_pton` and sends the kernel a request for each route: two
headers and a list of attributes.  By the format of such messages, each of
them asks for the change that the call stands for.
-/

namespace RoutingMesh

open AttributeList ByteStream DottedQuad

/-! ## Addresses -/

/-- `snprintf` into a buffer of `size` bytes keeps one for the end of the text. -/
def snprintf (size : Nat) (text : List Char) : List Char :=
  text.take (size - 1)

/-- The octets of an address, in network order. -/
def Ipv4.octets (address : Ipv4) : List UInt8 :=
  [address.network.first, address.network.second, address.network.third,
    address.host]

/-- The text of MESH_NET_BASE or of MESH_NET_PREFIX. -/
def Ipv4Prefix.text (network : Ipv4Prefix) : List Char :=
  DottedQuad.text [network.first, network.second, network.third]

/-- `snprintf(ip, sizeof(ip), "%s.%u", base, id)`, with 32 bytes for the text. -/
def addressText (base : List Char) (id : UInt8) : List Char :=
  snprintf 32 (base ++ '.' :: octetText id)

/-- `inet_pton`, for AF_INET. -/
def inetPton (text : List Char) : Option Ipv4 :=
  match octetsOf text with
  | some [first, second, third, host] => some ⟨⟨first, second, third⟩, host⟩
  | _ => none

/-! ## Requests -/

/-- What `nl_route_req_t` holds that is not always zero. -/
structure RouteRequest where
  nlmsgType : UInt16
  nlmsgFlags : UInt16
  nlmsgSeq : UInt32
  rtmFamily : UInt8
  rtmDstLen : UInt8
  rtmTable : UInt8
  rtmProtocol : UInt8
  rtmScope : UInt8
  rtmType : UInt8
  attributes : List UInt8

/-- `sizeof(struct nlmsghdr)` and `sizeof(struct rtmsg)`. -/
def requestHeaderSize : Nat := 16 + 12

/-- `sizeof(nl_route_req_t)`. -/
def requestSize : Nat := requestHeaderSize + 256

/-- `nlmsg_len`. -/
def RouteRequest.nlmsgLen (request : RouteRequest) : Nat :=
  requestHeaderSize + request.attributes.length

/-- The bytes that `sendmsg` gets. -/
def RouteRequest.bytes (request : RouteRequest) : List UInt8 :=
  hostOrder 4 (UInt64.ofNat request.nlmsgLen) ++
    hostOrder 2 request.nlmsgType.toUInt64 ++
    hostOrder 2 request.nlmsgFlags.toUInt64 ++
    hostOrder 4 request.nlmsgSeq.toUInt64 ++
    hostOrder 4 0 ++
    [request.rtmFamily, request.rtmDstLen, 0, 0, request.rtmTable,
      request.rtmProtocol, request.rtmScope, request.rtmType] ++
    hostOrder 4 0 ++
    request.attributes

/-- `nl_add_attr`; both headers together are aligned. -/
def nlAddAttr
    (request : RouteRequest)
    (type : UInt16)
    (data : List UInt8) : RouteRequest :=
  { request with
    attributes := append request.attributes ⟨type, data⟩ }

/-- `RTM_NEWROUTE`. -/
def rtmNewRoute : UInt16 := 24

/-- `RTM_DELROUTE`. -/
def rtmDelRoute : UInt16 := 25

/-- `NLM_F_REQUEST | NLM_F_ACK`. -/
def requestAck : UInt16 := 0x1 ||| 0x4

/-- `NLM_F_CREATE | NLM_F_REPLACE`. -/
def createReplace : UInt16 := 0x400 ||| 0x100

/-- `AF_INET`. -/
def afInet : UInt8 := 2

/-- `RT_TABLE_MAIN`. -/
def rtTableMain : UInt8 := 254

/-- `RT_TABLE_UNSPEC`. -/
def rtTableUnspec : UInt8 := 0

/-- `RTPROT_STATIC`. -/
def rtprotStatic : UInt8 := 4

/-- `RT_SCOPE_UNIVERSE`. -/
def rtScopeUniverse : UInt8 := 0

/-- `RTN_UNICAST`. -/
def rtnUnicast : UInt8 := 1

/-- `RTA_DST`. -/
def rtaDst : UInt16 := 1

/-- `RTA_OIF`. -/
def rtaOif : UInt16 := 4

/-- `RTA_GATEWAY`. -/
def rtaGateway : UInt16 := 5

/-- `RTA_TABLE`. -/
def rtaTable : UInt16 := 15

/-- The headers of a request that adds a route. -/
def addHeader (rtmTable : UInt8) : RouteRequest where
  nlmsgType := rtmNewRoute
  nlmsgFlags := requestAck ||| createReplace
  nlmsgSeq := 1
  rtmFamily := afInet
  rtmDstLen := 32
  rtmTable := rtmTable
  rtmProtocol := rtprotStatic
  rtmScope := rtScopeUniverse
  rtmType := rtnUnicast
  attributes := []

/-- The headers of a request that removes a route. -/
def delHeader : RouteRequest where
  nlmsgType := rtmDelRoute
  nlmsgFlags := requestAck
  nlmsgSeq := 1
  rtmFamily := afInet
  rtmDstLen := 32
  rtmTable := rtTableMain
  rtmProtocol := 0
  rtmScope := rtScopeUniverse
  rtmType := rtnUnicast
  attributes := []

/--
The three attributes of a route that is added, in the order in which they are
checked; `ifindex` is what `if_nametoindex` returns, 0 for no such interface.
-/
def addRouteAttrs
    (request : RouteRequest)
    (destIp gwIp : List Char)
    (ifindex : UInt32) : Option RouteRequest :=
  match inetPton destIp with
  | none => none
  | some dstAddr =>
      let withDst := nlAddAttr request rtaDst dstAddr.octets
      match inetPton gwIp with
      | none => none
      | some gwAddr =>
          let withGateway := nlAddAttr withDst rtaGateway gwAddr.octets
          if ifindex = 0 then
            none
          else
            some
              (nlAddAttr withGateway rtaOif (hostOrder 4 ifindex.toUInt64))

/-- `ip_route_add`, up to `nl_send`. -/
def ipRouteAddRequest
    (destIp gwIp : List Char)
    (ifindex : UInt32) : Option RouteRequest :=
  addRouteAttrs (addHeader rtTableMain) destIp gwIp ifindex

/-- `ip_route_add_t`, up to `nl_send`. -/
def ipRouteAddTRequest
    (destIp gwIp : List Char)
    (ifindex tableId : UInt32) : Option RouteRequest :=
  if tableId ≤ 255 then
    addRouteAttrs (addHeader tableId.toUInt8) destIp gwIp ifindex
  else
    addRouteAttrs
      (nlAddAttr (addHeader rtTableUnspec) rtaTable
        (hostOrder 4 tableId.toUInt64))
      destIp gwIp ifindex

/-- `ip_route_del`, up to `nl_send`. -/
def ipRouteDelRequest
    (destIp : List Char)
    (ifindex : UInt32) : Option RouteRequest :=
  match inetPton destIp with
  | none => none
  | some dstAddr =>
      let withDst := nlAddAttr delHeader rtaDst dstAddr.octets
      if ifindex = 0 then
        none
      else
        some (nlAddAttr withDst rtaOif (hostOrder 4 ifindex.toUInt64))

/-! ## The format of requests -/

/-- What a request asks for. -/
inductive RouteChange where
  | replace (tableId : UInt32) (dest gateway : Ipv4) (ifindex : UInt32)
  | delete (tableId : UInt32) (dest : Ipv4) (ifindex : UInt32)
  deriving DecidableEq, Repr

/-- The data of the first attribute of a type. -/
def attributeData
    (attributes : List Attribute)
    (type : UInt16) : Option (List UInt8) :=
  (attributes.find? fun item => item.type == type).map Attribute.data

/-- The address in an attribute. -/
def addressOf (data : List UInt8) : Option Ipv4 :=
  match data with
  | [first, second, third, host] => some ⟨⟨first, second, third⟩, host⟩
  | _ => none

/-- The number in an attribute. -/
def numberOf (data : List UInt8) : UInt32 :=
  UInt32.ofNat (hostValue data)

/-- The field of a message with its first byte and its size. -/
def messageField (message : List UInt8) (start size : Nat) : Nat :=
  hostValue ((message.drop start).take size)

/--
The change that a request of a type stands for: the table is that of the
header, unless there is an attribute for it.  A route is put in place of
another one only with both flags for it.
-/
def routeChangeOf
    (nlmsgType nlmsgFlags rtmTable : Nat)
    (attributes : List Attribute) : Option RouteChange :=
  let tableId :=
    match attributeData attributes rtaTable with
    | some data => numberOf data
    | none => UInt32.ofNat rtmTable
  let ifindex := ((attributeData attributes rtaOif).map numberOf).getD 0
  match (attributeData attributes rtaDst).bind addressOf with
  | none => none
  | some dest =>
      if nlmsgType = rtmNewRoute.toNat ∧
          nlmsgFlags &&& createReplace.toNat = createReplace.toNat then
        ((attributeData attributes rtaGateway).bind addressOf).map
          fun gateway => .replace tableId dest gateway ifindex
      else if nlmsgType = rtmDelRoute.toNat then
        some (.delete tableId dest ifindex)
      else
        none

/--
The change that a message asks for by the format of `rtnetlink`, if it is a
request for an IPv4 host route.
-/
def requestedChange (message : List UInt8) : Option RouteChange :=
  if messageField message 0 4 = message.length ∧
      messageField message 16 1 = afInet.toNat ∧
      messageField message 17 1 = 32 then
    routeChangeOf (messageField message 4 2) (messageField message 6 2)
      (messageField message 20 1) (decode (message.drop requestHeaderSize))
  else
    none

/-! ## Texts and addresses -/

theorem length_text_le (network : Ipv4Prefix) : network.text.length ≤ 11 := by
  have first := length_octetText_le network.first
  have second := length_octetText_le network.second
  have third := length_octetText_le network.third
  simp only [Ipv4Prefix.text, DottedQuad.text, List.map_cons, List.map_nil,
    List.intercalate, List.intersperse, List.flatten_cons, List.flatten_nil,
    List.length_append, List.length_singleton, List.length_nil]
  omega

/-- The text of an address fits in its buffer. -/
theorem addressText_eq
    (network : Ipv4Prefix)
    (id : UInt8) :
    addressText network.text id =
      DottedQuad.text (Ipv4.octets ⟨network, id⟩) := by
  have whole := length_text_le network
  have last := length_octetText_le id
  have kept :
      addressText network.text id = network.text ++ '.' :: octetText id := by
    unfold addressText snprintf
    apply List.take_of_length_le
    rw [List.length_append, List.length_cons]
    omega
  rw [kept]
  simp [Ipv4Prefix.text, DottedQuad.text, Ipv4.octets, List.intercalate]

/-- `inet_pton` reads the address of the node that the text was written for. -/
theorem inetPton_addressText
    (network : Ipv4Prefix)
    (id : UInt8) :
    inetPton (addressText network.text id) = some ⟨network, id⟩ := by
  unfold inetPton
  rw [addressText_eq, octetsOf_text (by simp [Ipv4.octets])]
  rfl

/-! ## Reading a request -/

/-- The headers of a request whose attributes were appended one by one. -/
theorem messageField_bytes
    {request : RouteRequest}
    (small : request.nlmsgLen < 256 ^ 4) :
    messageField request.bytes 0 4 = request.bytes.length ∧
      messageField request.bytes 4 2 = request.nlmsgType.toNat ∧
      messageField request.bytes 6 2 = request.nlmsgFlags.toNat ∧
      messageField request.bytes 16 1 = request.rtmFamily.toNat ∧
      messageField request.bytes 17 1 = request.rtmDstLen.toNat ∧
      messageField request.bytes 20 1 = request.rtmTable.toNat ∧
      request.bytes.drop requestHeaderSize = request.attributes := by
  have single : ∀ byte : UInt8, hostValue [byte] = byte.toNat := by
    intro byte
    simp [hostValue, ByteBlocks.littleEndian]
  have lengthFits :
      (UInt64.ofNat request.nlmsgLen).toNat = request.nlmsgLen := by
    rw [UInt64.toNat_ofNat']
    exact Nat.mod_eq_of_lt (small.trans (by decide))
  have storedLength :
      messageField request.bytes 0 4 =
        hostValue (hostOrder 4 (UInt64.ofNat request.nlmsgLen)) :=
    rfl
  have storedType :
      messageField request.bytes 4 2 =
        hostValue (hostOrder 2 request.nlmsgType.toUInt64) :=
    rfl
  have storedFlags :
      messageField request.bytes 6 2 =
        hostValue (hostOrder 2 request.nlmsgFlags.toUInt64) :=
    rfl
  have storedFamily :
      messageField request.bytes 16 1 = hostValue [request.rtmFamily] :=
    rfl
  have storedDstLen :
      messageField request.bytes 17 1 = hostValue [request.rtmDstLen] :=
    rfl
  have storedTable :
      messageField request.bytes 20 1 = hostValue [request.rtmTable] :=
    rfl
  refine ⟨?_, ?_, ?_, ?_, ?_, ?_, rfl⟩
  · rw [storedLength, hostValue_hostOrder (lengthFits.trans_lt small),
      lengthFits]
    simp [RouteRequest.bytes, RouteRequest.nlmsgLen, requestHeaderSize]
    omega
  · rw [storedType, hostValue_hostOrder, UInt16.toNat_toUInt64]
    rw [UInt16.toNat_toUInt64]
    exact request.nlmsgType.toNat_lt
  · rw [storedFlags, hostValue_hostOrder, UInt16.toNat_toUInt64]
    rw [UInt16.toNat_toUInt64]
    exact request.nlmsgFlags.toNat_lt
  · rw [storedFamily, single]
  · rw [storedDstLen, single]
  · rw [storedTable, single]

/-- The number that stands in an attribute. -/
theorem numberOf_hostOrder (number : UInt32) :
    numberOf (hostOrder 4 number.toUInt64) = number := by
  rw [numberOf, hostValue_hostOrder, UInt32.toNat_toUInt64,
    UInt32.ofNat_toNat]
  rw [UInt32.toNat_toUInt64]
  exact number.toNat_lt

/-- A request for a host route with the attributes that were added to it. -/
structure CarriesAttributes
    (request : RouteRequest)
    (nlmsgType nlmsgFlags : UInt16)
    (rtmTable : UInt8)
    (attributes : List Attribute) : Prop where
  nlmsgType : request.nlmsgType = nlmsgType
  nlmsgFlags : request.nlmsgFlags = nlmsgFlags
  rtmTable : request.rtmTable = rtmTable
  family : request.rtmFamily = afInet
  dstLen : request.rtmDstLen = 32
  attributes : request.attributes = encode attributes

/-- `nl_add_attr` adds one more attribute. -/
theorem CarriesAttributes.nlAddAttr
    {request : RouteRequest}
    {nlmsgType nlmsgFlags : UInt16}
    {rtmTable : UInt8}
    {attributes : List Attribute}
    (holds : CarriesAttributes request nlmsgType nlmsgFlags rtmTable attributes)
    (type : UInt16)
    (data : List UInt8) :
    CarriesAttributes (RoutingMesh.nlAddAttr request type data) nlmsgType
      nlmsgFlags rtmTable (attributes ++ [⟨type, data⟩]) :=
  { holds with
    attributes := by
      rw [RoutingMesh.nlAddAttr, holds.attributes, append_encode] }

/-- Attributes for addresses and numbers have four bytes of data. -/
def WordAttributes (attributes : List Attribute) : Prop :=
  attributes.length ≤ 32 ∧ ∀ item ∈ attributes, item.data.length = 4

/-- The request fits in its buffer. -/
theorem CarriesAttributes.nlmsgLen_le
    {request : RouteRequest}
    {nlmsgType nlmsgFlags : UInt16}
    {rtmTable : UInt8}
    {attributes : List Attribute}
    (holds : CarriesAttributes request nlmsgType nlmsgFlags rtmTable attributes)
    (words : WordAttributes attributes) :
    request.nlmsgLen ≤ requestSize := by
  have size : (encode attributes).length ≤ attributes.length * 8 := by
    apply length_encode_le rfl
    intro item listed
    rw [Attribute.length, words.2 item listed]
  have few : attributes.length * 8 ≤ 256 :=
    Nat.mul_le_mul_right 8 words.1
  unfold RouteRequest.nlmsgLen requestSize
  rw [holds.attributes]
  exact Nat.add_le_add_left (size.trans few) requestHeaderSize

/-- The format gives back the fields and the attributes that were written. -/
theorem CarriesAttributes.requestedChange_bytes
    {request : RouteRequest}
    {nlmsgType nlmsgFlags : UInt16}
    {rtmTable : UInt8}
    {attributes : List Attribute}
    (holds : CarriesAttributes request nlmsgType nlmsgFlags rtmTable attributes)
    (words : WordAttributes attributes) :
    requestedChange request.bytes =
      routeChangeOf nlmsgType.toNat nlmsgFlags.toNat rtmTable.toNat
        attributes := by
  have size := holds.nlmsgLen_le words
  have small : request.nlmsgLen < 256 ^ 4 :=
    size.trans_lt (by decide)
  obtain ⟨storedLength, storedType, flags, family, dstLen, table, body⟩ :=
    messageField_bytes small
  have fit : ∀ item ∈ attributes, item.Fits := by
    intro item listed
    rw [Attribute.Fits, Attribute.length, words.2 item listed]
    decide
  rw [requestedChange, body, holds.attributes, decode_encode fit, storedType,
    flags, table, holds.nlmsgType, holds.nlmsgFlags, holds.rtmTable]
  apply if_pos
  rw [family, dstLen, holds.family, holds.dstLen]
  exact ⟨storedLength, rfl, rfl⟩

/-- A request that fits in its buffer and that asks for a change. -/
structure AsksFor
    (request : RouteRequest)
    (change : RouteChange) : Prop where
  size : request.nlmsgLen ≤ requestSize
  read : requestedChange request.bytes = some change

/-- The table that the header or an attribute names. -/
def TableGiven
    (rtmTable : UInt8)
    (leading : List Attribute)
    (tableId : UInt32) : Prop :=
  leading = [] ∧ UInt32.ofNat rtmTable.toNat = tableId ∨
    leading = [⟨rtaTable, hostOrder 4 tableId.toUInt64⟩]

/-- The last part of both calls that add a route. -/
theorem asksFor_addRouteAttrs
    {request : RouteRequest}
    {rtmTable : UInt8}
    {leading : List Attribute}
    (holds :
      CarriesAttributes request rtmNewRoute (requestAck ||| createReplace)
        rtmTable leading)
    {tableId : UInt32}
    (given : TableGiven rtmTable leading tableId)
    (destNetwork gwNetwork : Ipv4Prefix)
    (destId gwId : UInt8)
    {ifindex : UInt32}
    (found : ifindex ≠ 0) :
    ∃ asked,
      addRouteAttrs request (addressText destNetwork.text destId)
          (addressText gwNetwork.text gwId) ifindex =
        some asked ∧
      AsksFor asked
        (.replace tableId ⟨destNetwork, destId⟩ ⟨gwNetwork, gwId⟩ ifindex) := by
  simp only [addRouteAttrs, inetPton_addressText, if_neg found]
  refine ⟨_, rfl, ?_⟩
  have complete :=
    ((holds.nlAddAttr rtaDst (Ipv4.octets ⟨destNetwork, destId⟩)).nlAddAttr
      rtaGateway (Ipv4.octets ⟨gwNetwork, gwId⟩)).nlAddAttr
      rtaOif (hostOrder 4 ifindex.toUInt64)
  have oif := numberOf_hostOrder ifindex
  rcases given with ⟨rfl, isTable⟩ | rfl
  · have words :
        WordAttributes
          [⟨rtaDst, Ipv4.octets ⟨destNetwork, destId⟩⟩,
            ⟨rtaGateway, Ipv4.octets ⟨gwNetwork, gwId⟩⟩,
            ⟨rtaOif, hostOrder 4 ifindex.toUInt64⟩] := by
      simp [WordAttributes, Ipv4.octets]
    refine
      ⟨complete.nlmsgLen_le words, (complete.requestedChange_bytes words).trans ?_⟩
    calc
      _ = some (RouteChange.replace (UInt32.ofNat rtmTable.toNat)
            ⟨destNetwork, destId⟩ ⟨gwNetwork, gwId⟩
            (numberOf (hostOrder 4 ifindex.toUInt64))) := rfl
      _ = _ := by rw [isTable, oif]
  · have words :
        WordAttributes
          [⟨rtaTable, hostOrder 4 tableId.toUInt64⟩,
            ⟨rtaDst, Ipv4.octets ⟨destNetwork, destId⟩⟩,
            ⟨rtaGateway, Ipv4.octets ⟨gwNetwork, gwId⟩⟩,
            ⟨rtaOif, hostOrder 4 ifindex.toUInt64⟩] := by
      simp [WordAttributes, Ipv4.octets]
    refine
      ⟨complete.nlmsgLen_le words, (complete.requestedChange_bytes words).trans ?_⟩
    calc
      _ = some (RouteChange.replace (numberOf (hostOrder 4 tableId.toUInt64))
            ⟨destNetwork, destId⟩ ⟨gwNetwork, gwId⟩
            (numberOf (hostOrder 4 ifindex.toUInt64))) := rfl
      _ = _ := by rw [numberOf_hostOrder tableId, oif]

section

variable {destNetwork gwNetwork : Ipv4Prefix}
variable {destId gwId : UInt8}
variable {ifindex : UInt32}

/-- `ip_route_add` asks for a route in the main table. -/
theorem asksFor_ipRouteAdd
    (found : ifindex ≠ 0) :
    ∃ asked,
      ipRouteAddRequest (addressText destNetwork.text destId)
          (addressText gwNetwork.text gwId) ifindex =
        some asked ∧
      AsksFor asked
        (.replace rtTableMain.toUInt32 ⟨destNetwork, destId⟩
          ⟨gwNetwork, gwId⟩ ifindex) :=
  asksFor_addRouteAttrs ⟨rfl, rfl, rfl, rfl, rfl, rfl⟩ (.inl ⟨rfl, rfl⟩)
    destNetwork gwNetwork destId gwId found

/-- `ip_route_add_t` asks for one in its table, whatever its number is. -/
theorem asksFor_ipRouteAddT
    (found : ifindex ≠ 0)
    (tableId : UInt32) :
    ∃ asked,
      ipRouteAddTRequest (addressText destNetwork.text destId)
          (addressText gwNetwork.text gwId) ifindex tableId =
        some asked ∧
      AsksFor asked
        (.replace tableId ⟨destNetwork, destId⟩ ⟨gwNetwork, gwId⟩ ifindex) := by
  unfold ipRouteAddTRequest
  split
  · rename_i inByte
    have kept : UInt32.ofNat tableId.toUInt8.toNat = tableId := by
      have below : tableId.toNat < 2 ^ 8 :=
        Nat.lt_succ_of_le (UInt32.le_iff_toNat_le.mp inByte)
      rw [UInt32.toNat_toUInt8, Nat.mod_eq_of_lt below, UInt32.ofNat_toNat]
    exact asksFor_addRouteAttrs ⟨rfl, rfl, rfl, rfl, rfl, rfl⟩
      (.inl ⟨rfl, kept⟩) destNetwork gwNetwork destId gwId found
  · have header :
        CarriesAttributes (addHeader rtTableUnspec) rtmNewRoute
          (requestAck ||| createReplace) rtTableUnspec [] :=
      ⟨rfl, rfl, rfl, rfl, rfl, rfl⟩
    exact asksFor_addRouteAttrs (header.nlAddAttr rtaTable _) (.inr rfl)
      destNetwork gwNetwork destId gwId found

/-- `ip_route_del` asks for the removal of a route of the main table. -/
theorem asksFor_ipRouteDel
    (found : ifindex ≠ 0) :
    ∃ asked,
      ipRouteDelRequest (addressText destNetwork.text destId) ifindex =
        some asked ∧
      AsksFor asked
        (.delete rtTableMain.toUInt32 ⟨destNetwork, destId⟩ ifindex) := by
  simp only [ipRouteDelRequest, inetPton_addressText, if_neg found]
  refine ⟨_, rfl, ?_⟩
  have header :
      CarriesAttributes delHeader rtmDelRoute requestAck rtTableMain [] :=
    ⟨rfl, rfl, rfl, rfl, rfl, rfl⟩
  have complete :=
    (header.nlAddAttr rtaDst (Ipv4.octets ⟨destNetwork, destId⟩)).nlAddAttr
      rtaOif (hostOrder 4 ifindex.toUInt64)
  have words :
      WordAttributes
        [⟨rtaDst, Ipv4.octets ⟨destNetwork, destId⟩⟩,
          ⟨rtaOif, hostOrder 4 ifindex.toUInt64⟩] := by
    simp [WordAttributes, Ipv4.octets]
  refine
    ⟨complete.nlmsgLen_le words, (complete.requestedChange_bytes words).trans ?_⟩
  calc
    _ = some (RouteChange.delete rtTableMain.toUInt32 ⟨destNetwork, destId⟩
          (numberOf (hostOrder 4 ifindex.toUInt64))) := rfl
    _ = _ := by rw [numberOf_hostOrder]

/-- Without the interface nothing is sent. -/
theorem ipRouteAddTRequest_of_notFound
    (tableId : UInt32) :
    ipRouteAddTRequest (addressText destNetwork.text destId)
        (addressText gwNetwork.text gwId) 0 tableId =
      none := by
  simp only [ipRouteAddTRequest, addRouteAttrs, inetPton_addressText, if_pos,
    ite_self]

end

end RoutingMesh
