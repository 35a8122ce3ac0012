import McabberJingle.Socks5.Messages

/-! socks5-proto.c: the callbacks of the negotiation, each of which runs when a read or a write
has ended and issues the next one.
-/

namespace McabberJingle.Socks5

-----------------------------------------------------------------------------------------
-- The state of a negotiation
-----------------------------------------------------------------------------------------

/-- The callbacks given to `do_read`. -/
inductive ReadCallback where
  | negoMsg | negoReply | authReply | connectMsg | connectAddrLen | connectAddr | connectReply
  | connectReplyAddrLen | connectReplyAddr
  deriving DecidableEq

/-- The callbacks given to `do_write`. -/
inductive WriteCallback where
  | negoMsg | noSupportedMethod | negoReply | authMsg | connectMsg | connectReply
  deriving DecidableEq

/-- How a negotiation completes. -/
inductive Completion where
  | success
  | error (error : Error)
  | ioError
  deriving DecidableEq

/-- Where the C code has no further meaning. -/
inductive Undefined where
  | outOfBounds | uninitialised | nullAddress
  deriving DecidableEq

/-- What happens next: a read or a write was issued, or the negotiation is over. -/
inductive Next where
  | reading (callback : ReadCallback)
  | writing (callback : WriteCallback)
  | completed (completion : Completion)
  | undefined (what : Undefined)
  deriving DecidableEq

/-- `external_address` is NULL for a client; nothing sets `username` and `password`. The length
of `buffer` is its allocated size.
-/
structure ConnectAsyncData where
  externalAddress : Option GInetSocketAddress
  hostname : CString
  username : Option CString
  password : Option CString
  buffer : List UInt8
  length : Nat
  offset : Nat

structure Negotiation where
  data : ConnectAsyncData
  next : Next

/-- What an uninitialised `GError *` happens to hold. -/
inductive Uninitialised where
  | null | wild
  deriving DecidableEq

namespace ConnectAsyncData

def doRead (callback : ReadCallback) (data : ConnectAsyncData) : Negotiation :=
  { data, next := .reading callback }

def doWrite (callback : WriteCallback) (data : ConnectAsyncData) : Negotiation :=
  { data, next := .writing callback }

/-- A new buffer of `size` bytes, to be filled with `length` bytes. -/
def expect (size length : Nat) (callback : ReadCallback) (data : ConnectAsyncData)
    : Negotiation :=
  doRead callback { data with buffer := List.replicate size 0, length, offset := 0 }

/-- A new buffer of `size` bytes into which a message is built, and its first write. -/
def build (size : Nat) (msg : List UInt8) (callback : WriteCallback) (data : ConnectAsyncData)
    : Negotiation :=
  if size < msg.length then
    { data, next := .undefined .outOfBounds }
  else
    doWrite callback { data with
      buffer := msg ++ List.replicate (size - msg.length) 0
      length := msg.length
      offset := 0 }

/-- The same buffer is filled with `length` bytes from its start. -/
def refill (length : Nat) (callback : ReadCallback) (data : ConnectAsyncData) : Negotiation :=
  doRead callback { data with length, offset := 0 }

/-- `complete_async_from_error`. -/
def completeAsyncFromError (error : Error) (data : ConnectAsyncData) : Negotiation :=
  { data, next := .completed (.error error) }

/-- `complete_async_from_error` with an error that was set through an uninitialised pointer. -/
def completeFromUninitialised (memory : Uninitialised) (error : Error) (data : ConnectAsyncData)
    : Negotiation :=
  match memory with
  | .null => data.completeAsyncFromError error
  | .wild => { data, next := .undefined .uninitialised }

def complete (data : ConnectAsyncData) : Negotiation := { data, next := .completed .success }

/-- `data->username || data->password`. -/
def hasAuth (data : ConnectAsyncData) : Bool := data.username.isSome || data.password.isSome

-----------------------------------------------------------------------------------------
-- The two shapes of callbacks
-----------------------------------------------------------------------------------------

/-- Most write callbacks: go on when everything is written, else write the rest. -/
def written (again : WriteCallback) (done : ConnectAsyncData → Negotiation)
    (data : ConnectAsyncData) (count : Nat)
    : Negotiation :=
  let data := { data with offset := data.offset + count }
  if data.offset = data.length then
    done data
  else
    data.doWrite again

/-- Most read callbacks: go on when everything is read, else read the rest, with the callback
`again`.
-/
def filled (again : ReadCallback) (done : ConnectAsyncData → Negotiation)
    (data : ConnectAsyncData) (count : Nat)
    : Negotiation :=
  let data := { data with offset := data.offset + count }
  if data.offset = data.length then
    done data
  else
    data.doRead again

-----------------------------------------------------------------------------------------
-- The greeting
-----------------------------------------------------------------------------------------

def negoMsgWriteCb : ConnectAsyncData → Nat → Negotiation :=
  written .negoMsg (expect SOCKS5_NEGO_REP_LEN SOCKS5_NEGO_REP_LEN .negoReply)

/-- `nego_msg_read_cb` once the bytes are counted; the error that the parser sets is a new,
uninitialised variable.
-/
def onNegoMsg (memory : Uninitialised) (data : ConnectAsyncData) : Negotiation :=
  if (data.offset ≥ 2 ∧ data.offset - 2 > (byteAt data.buffer 2).toNat)
      ∨ data.offset = data.length then
    match serverParseNegoInit data.buffer data.offset with
    | .ok () =>
        data.build SOCKS5_NEGO_REP_LEN (serverSetNegoReplyMsg SOCKS5_AUTH_NONE) .negoReply
    | .error error =>
        match memory with
        | .wild => { data, next := .undefined .uninitialised }
        | .null =>
            if error.domain = .s5bSocks5 ∧ error.code = .authFailed then
              data.build SOCKS5_NEGO_REP_LEN (serverSetNegoReplyMsg SOCKS5_AUTH_NO_ACCEPT)
                .noSupportedMethod
            else
              data.completeAsyncFromError error
  else
    data.doRead .negoMsg

def negoMsgReadCb (memory : Uninitialised) (data : ConnectAsyncData) (count : Nat)
    : Negotiation :=
  onNegoMsg memory { data with offset := data.offset + count }

def noSupportedMethodCb : ConnectAsyncData → Nat → Negotiation :=
  written .noSupportedMethod (completeAsyncFromError (.s5b .authFailed
    "The client did not offer any authentication method we support."))

def sendConnectMsg (data : ConnectAsyncData) : Negotiation :=
  match clientSetConnectMsg data.hostname S5B_DST_PORT with
  | .error error => data.completeAsyncFromError error
  | .ok msg => data.build SOCKS5_CONN_MSG_LEN msg .connectMsg

/-- `nego_reply_read_cb` with the whole reply, and an uninitialised error variable too. -/
def onNegoReply (memory : Uninitialised) (data : ConnectAsyncData) : Negotiation :=
  match clientParseNegoReply data.buffer data.hasAuth with
  | .error error => data.completeFromUninitialised memory error
  | .ok true =>
      data.build SOCKS5_AUTH_MSG_LEN (setAuthMsg data.username data.password) .authMsg
  | .ok false => data.sendConnectMsg

def negoReplyReadCb (memory : Uninitialised) : ConnectAsyncData → Nat → Negotiation :=
  filled .negoReply (onNegoReply memory)

def negoReplyWriteCb : ConnectAsyncData → Nat → Negotiation :=
  written .negoReply (expect SOCKS5_CONN_MSG_LEN 4 .connectMsg)

def authMsgWriteCb : ConnectAsyncData → Nat → Negotiation :=
  written .authMsg (expect SOCKS5_NEGO_REP_LEN SOCKS5_NEGO_REP_LEN .authReply)

def onAuthReply (data : ConnectAsyncData) : Negotiation :=
  match checkAuthStatus data.buffer with
  | .error error => data.completeAsyncFromError error
  | .ok () => data.sendConnectMsg

def authReplyReadCb : ConnectAsyncData → Nat → Negotiation :=
  filled .authReply onAuthReply

-----------------------------------------------------------------------------------------
-- The request
-----------------------------------------------------------------------------------------

def connectMsgWriteCb : ConnectAsyncData → Nat → Negotiation :=
  written .connectMsg (expect SOCKS5_CONN_REP_LEN 4 .connectReply)

/-- `connect_msg_read_cb` with the whole header; an error that is there already is kept. -/
def onConnectMsg (data : ConnectAsyncData) : Negotiation :=
  match serverParseConnectMsg data.buffer with
  | .error error => data.completeAsyncFromError error
  | .ok (atype, error) =>
      if atype = SOCKS5_ATYP_DOMAINNAME then
        data.refill 1 .connectAddrLen
      else
        data.completeAsyncFromError (error.getD (.s5b .failed
          "This SOCKSv5 server implementation only support DOMAINNAME addresses."))

def connectMsgReadCb : ConnectAsyncData → Nat → Negotiation :=
  filled .connectMsg onConnectMsg

/-- `connect_addr_len_read_cb`: neither counts the bytes read nor reads again. -/
def connectAddrLenReadCb (data : ConnectAsyncData) (_count : Nat) : Negotiation :=
  data.refill ((byteAt data.buffer 0).toNat + 2) .connectAddr

/-- The reply of the server that `connect_addr_read_cb` sends. -/
def connectReply (address : GInetSocketAddress) : List UInt8 :=
  let atype :=
    match address.address with
    | .ipv4 _ => SOCKS5_ATYP_IPV4
    | .ipv6 _ => SOCKS5_ATYP_IPV6
  serverSetConnectReply SOCKS5_REP_SUCCEEDED atype address.address.toBytes address.port

/-- `connect_addr_read_cb` with the whole address. A client has no external address: GLib hands
out NULL, and its bytes are copied.
-/
def onConnectAddr (data : ConnectAsyncData) : Negotiation :=
  if data.hostname = gStrndup data.buffer (data.length - 2) then
    match data.externalAddress with
    | none => { data, next := .undefined .nullAddress }
    | some address => data.build SOCKS5_CONN_REP_LEN (connectReply address) .connectReply
  else
    data.completeAsyncFromError (.s5b .notAllowed "The client gave an invalid hostname")

/-- `connect_addr_read_cb`, which reads the rest with another callback. -/
def connectAddrReadCb : ConnectAsyncData → Nat → Negotiation :=
  filled .connectReply onConnectAddr

def connectReplyWriteCb : ConnectAsyncData → Nat → Negotiation :=
  written .connectReply complete

-----------------------------------------------------------------------------------------
-- The reply
-----------------------------------------------------------------------------------------

/-- `connect_reply_read_cb` with the whole header. -/
def onConnectReply (data : ConnectAsyncData) : Negotiation :=
  match clientParseConnectReply data.buffer with
  | .error error => data.completeAsyncFromError error
  | .ok atype =>
      if atype = SOCKS5_ATYP_IPV4 then
        data.refill 6 .connectReplyAddr
      else if atype = SOCKS5_ATYP_IPV6 then
        data.refill 18 .connectReplyAddr
      else
        data.refill 1 .connectReplyAddrLen

def connectReplyReadCb : ConnectAsyncData → Nat → Negotiation :=
  filled .connectReply onConnectReply

/-- `connect_reply_addr_len_read_cb`, which goes on with the callback of the server. -/
def connectReplyAddrLenReadCb (data : ConnectAsyncData) (_count : Nat) : Negotiation :=
  data.refill ((byteAt data.buffer 0).toNat + 2) .connectAddr

/-- `connect_reply_addr_read_cb`, which reads the rest with another callback. -/
def connectReplyAddrReadCb : ConnectAsyncData → Nat → Negotiation :=
  filled .connectReply complete

end ConnectAsyncData

-----------------------------------------------------------------------------------------
-- The two sides
-----------------------------------------------------------------------------------------

/-- `socks5_client_nego`. -/
def socks5ClientNego (hostname : CString) : Negotiation :=
  let data : ConnectAsyncData := {
    externalAddress := none, hostname, username := none, password := none
    buffer := [], length := 0, offset := 0
  }
  data.build SOCKS5_NEGO_MSG_LEN (clientSetNegoMsg data.hasAuth) .negoMsg

/-- `socks5_server_nego`: the length of the first read is not the size of its buffer. -/
def socks5ServerNego (allowedHostname : CString) (externalAddress : GInetSocketAddress)
    : Negotiation :=
  let data : ConnectAsyncData := {
    externalAddress := some externalAddress, hostname := allowedHostname
    username := none, password := none, buffer := [], length := 0, offset := 0
  }
  data.expect SOCKS5_NEGO_MSG_LEN SOCKS5_NEGO_MSG_MAX_LEN .negoMsg

-----------------------------------------------------------------------------------------
-- Input and output
-----------------------------------------------------------------------------------------

/-- How a read or a write ends; a read of no bytes is the end of the stream. -/
inductive IoEvent where
  | wrote (count : Nat)
  | read (bytes : List UInt8)
  | failed

def ReadCallback.run (memory : Uninitialised)
    : ReadCallback → ConnectAsyncData → Nat → Negotiation
  | .negoMsg => ConnectAsyncData.negoMsgReadCb memory
  | .negoReply => ConnectAsyncData.negoReplyReadCb memory
  | .authReply => ConnectAsyncData.authReplyReadCb
  | .connectMsg => ConnectAsyncData.connectMsgReadCb
  | .connectAddrLen => ConnectAsyncData.connectAddrLenReadCb
  | .connectAddr => ConnectAsyncData.connectAddrReadCb
  | .connectReply => ConnectAsyncData.connectReplyReadCb
  | .connectReplyAddrLen => ConnectAsyncData.connectReplyAddrLenReadCb
  | .connectReplyAddr => ConnectAsyncData.connectReplyAddrReadCb

def WriteCallback.run : WriteCallback → ConnectAsyncData → Nat → Negotiation
  | .negoMsg => ConnectAsyncData.negoMsgWriteCb
  | .noSupportedMethod => ConnectAsyncData.noSupportedMethodCb
  | .negoReply => ConnectAsyncData.negoReplyWriteCb
  | .authMsg => ConnectAsyncData.authMsgWriteCb
  | .connectMsg => ConnectAsyncData.connectMsgWriteCb
  | .connectReply => ConnectAsyncData.connectReplyWriteCb

/-- The bytes that a read stores in the buffer, unless they go behind its end. -/
def ConnectAsyncData.store (data : ConnectAsyncData) (bytes : List UInt8)
    : Option ConnectAsyncData :=
  if data.offset + bytes.length ≤ data.buffer.length then
    some { data with
      buffer := data.buffer.take data.offset ++ bytes
        ++ data.buffer.drop (data.offset + bytes.length) }
  else
    none

/-- How many bytes the pending read or write asks for. -/
def Negotiation.wanted (n : Negotiation) : Nat := n.data.length - n.data.offset

def Next.isReading : Next → Bool
  | .reading _ => true
  | _ => false

def Next.isWriting : Next → Bool
  | .writing _ => true
  | _ => false

/-- Whether the pending read or write can end so. -/
def Negotiation.CanEnd (n : Negotiation) : IoEvent → Prop
  | .wrote count => n.next.isWriting = true ∧ count ≤ n.wanted
  | .read bytes => n.next.isReading = true ∧ bytes.length ≤ n.wanted
  | .failed => n.next.isReading = true ∨ n.next.isWriting = true

instance (n : Negotiation) (event : IoEvent) : Decidable (n.CanEnd event) := by
  cases event <;> unfold Negotiation.CanEnd <;> infer_instance

/-- What the end of a read or a write leads to. -/
def Negotiation.ends (memory : Uninitialised) (n : Negotiation) (event : IoEvent)
    : Negotiation :=
  match n.next, event with
  | .writing callback, .wrote count => callback.run n.data count
  | .reading callback, .read bytes =>
      match n.data.store bytes with
      | none => { n with next := .undefined .outOfBounds }
      | some data => callback.run memory data bytes.length
  | .writing _, .failed => { n with next := .completed .ioError }
  | .reading _, .failed => { n with next := .completed .ioError }
  | _, _ => n

-----------------------------------------------------------------------------------------
-- What can end
-----------------------------------------------------------------------------------------

/-- The ends of reads and writes, with the callback that waits for them. -/
inductive Negotiation.Ending : Negotiation → IoEvent → Prop
  | wrote {data : ConnectAsyncData} (callback : WriteCallback) (count : Nat)
    (fits : count ≤ data.length - data.offset)
    : Ending { data, next := .writing callback } (.wrote count)
  | read {data : ConnectAsyncData} (callback : ReadCallback) (bytes : List UInt8)
    (fits : bytes.length ≤ data.length - data.offset)
    : Ending { data, next := .reading callback } (.read bytes)
  | failedWrite {data : ConnectAsyncData} (callback : WriteCallback)
    : Ending { data, next := .writing callback } .failed
  | failedRead {data : ConnectAsyncData} (callback : ReadCallback)
    : Ending { data, next := .reading callback } .failed

theorem Negotiation.CanEnd.ending {n : Negotiation} {event : IoEvent} (can : n.CanEnd event)
    : n.Ending event := by
  obtain ⟨data, next⟩ := n
  cases event with
  | wrote count =>
      cases next with
      | writing callback => exact .wrote callback count can.2
      | _ => cases can.1
  | read bytes =>
      cases next with
      | reading callback => exact .read callback bytes can.2
      | _ => cases can.1
  | failed =>
      cases next with
      | reading callback => exact .failedRead callback
      | writing callback => exact .failedWrite callback
      | _ => rcases can with reading | writing <;> contradiction

-----------------------------------------------------------------------------------------
-- Messages in their buffers
-----------------------------------------------------------------------------------------

/-- A message that fits its buffer is written from its start. -/
theorem build_eq {data : ConnectAsyncData} {msg : List UInt8} {capacity : Nat}
    (fits : msg.length ≤ capacity) (callback : WriteCallback)
    : data.build capacity msg callback = ConnectAsyncData.doWrite callback
        { data with
          buffer := msg ++ List.replicate (capacity - msg.length) 0
          length := msg.length
          offset := 0 } := by
  rw [ConnectAsyncData.build, if_neg (Nat.not_lt.mpr fits)]

theorem connectReply_length (address : GInetSocketAddress)
    : (ConnectAsyncData.connectReply address).length ≤ SOCKS5_CONN_REP_LEN := by
  obtain ⟨address, port⟩ := address
  cases address <;>
    simp [ConnectAsyncData.connectReply, serverSetConnectReply, GInetAddress.toBytes, gHtons,
      SOCKS5_ATYP_IPV4, SOCKS5_ATYP_IPV6, SOCKS5_ATYP_DOMAINNAME, SOCKS5_CONN_REP_LEN]

end McabberJingle.Socks5
