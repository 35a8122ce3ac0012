/-! socks5-proto.c: the messages of the SOCKS5 negotiation, built and parsed. -/

namespace McabberJingle.Socks5

-----------------------------------------------------------------------------------------
-- Constants
-----------------------------------------------------------------------------------------

def SOCKS5_VERSION : UInt8 := 0x05
def SOCKS5_CMD_CONNECT : UInt8 := 0x01
def SOCKS5_ATYP_IPV4 : UInt8 := 0x01
def SOCKS5_ATYP_DOMAINNAME : UInt8 := 0x03
def SOCKS5_ATYP_IPV6 : UInt8 := 0x04
def SOCKS5_AUTH_VERSION : UInt8 := 0x01
def SOCKS5_AUTH_NONE : UInt8 := 0x00
def SOCKS5_AUTH_USR_PASS : UInt8 := 0x02
def SOCKS5_AUTH_NO_ACCEPT : UInt8 := 0xff
def SOCKS5_MAX_LEN : Nat := 255
def SOCKS5_RESERVED : UInt8 := 0x00
def SOCKS5_REP_SUCCEEDED : UInt8 := 0x00
def SOCKS5_REP_SRV_FAILURE : UInt8 := 0x01
def SOCKS5_REP_NOT_ALLOWED : UInt8 := 0x02
def SOCKS5_REP_NET_UNREACH : UInt8 := 0x03
def SOCKS5_REP_HOST_UNREACH : UInt8 := 0x04
def SOCKS5_REP_REFUSED : UInt8 := 0x05
def SOCKS5_REP_TTL_EXPIRED : UInt8 := 0x06
def SOCKS5_REP_CMD_NOT_SUP : UInt8 := 0x07
def SOCKS5_REP_ATYPE_NOT_SUP : UInt8 := 0x08
def S5B_DST_PORT : UInt16 := 0

-- the sizes of the buffers
def SOCKS5_NEGO_MSG_LEN : Nat := 4
def SOCKS5_NEGO_REP_LEN : Nat := 2
def SOCKS5_AUTH_MSG_LEN : Nat := 515
def SOCKS5_CONN_MSG_LEN : Nat := 262
def SOCKS5_CONN_REP_LEN : Nat := 255
def SOCKS5_NEGO_MSG_MAX_LEN : Nat := 257

-----------------------------------------------------------------------------------------
-- Data
-----------------------------------------------------------------------------------------

/-- The bytes of a C string before its terminator. -/
structure CString where
  bytes : List UInt8
  nulFree : 0 ∉ bytes
  deriving DecidableEq

/-- `strlen`. -/
def CString.strlen (str : CString) : Nat := str.bytes.length

/-- `g_strndup`: at most `n` bytes, and none from the first NUL on. -/
def gStrndup (buffer : List UInt8) (n : Nat) : CString where
  bytes := (buffer.take n).takeWhile (· != 0)
  nulFree zero := by
    have kept := List.all_eq_true.mp (List.all_takeWhile (p := (· != 0))) 0 zero
    simp at kept

/-- The port in network byte order. -/
def gHtons (port : UInt16) : List UInt8 := [(port >>> 8).toUInt8, port.toUInt8]

/-- `GInetAddress`: the bytes of an address of one of the two families. -/
inductive GInetAddress where
  | ipv4 (bytes : Vector UInt8 4)
  | ipv6 (bytes : Vector UInt8 16)

/-- `g_inet_address_to_bytes`. -/
def GInetAddress.toBytes : GInetAddress → List UInt8
  | .ipv4 bytes => bytes.toList
  | .ipv6 bytes => bytes.toList

structure GInetSocketAddress where
  address : GInetAddress
  port : UInt16

inductive S5bSocks5Error where
  | hostUnreachable | networkUnreachable | connectionRefused | failed | authFailed | needAuth
  | notAllowed
  deriving DecidableEq

/-- The domains of the errors; codes of `gIo` errors are taken from `S5bSocks5Error` too. -/
inductive ErrorDomain where
  | s5bSocks5 | gIo
  deriving DecidableEq

/-- A `GError`. -/
structure Error where
  domain : ErrorDomain
  code : S5bSocks5Error
  message : String
  deriving DecidableEq

/-- An error of the domain `S5B_SOCKS5_ERROR`. -/
def Error.s5b (code : S5bSocks5Error) (message : String) : Error :=
  { domain := .s5bSocks5, code, message }

/-- The byte of the buffer at an index; no caller reads behind the end. -/
def byteAt (data : List UInt8) (i : Nat) : UInt8 := data.getD i 0

-----------------------------------------------------------------------------------------
-- The greeting
-----------------------------------------------------------------------------------------

def clientSetNegoMsg (hasAuth : Bool) : List UInt8 :=
  if hasAuth then
    [SOCKS5_VERSION, 0x02, SOCKS5_AUTH_NONE, SOCKS5_AUTH_USR_PASS]
  else
    [SOCKS5_VERSION, 0x01, SOCKS5_AUTH_NONE]

def serverSetNegoReplyMsg (method : UInt8) : List UInt8 := [SOCKS5_VERSION, method]

/-- `client_parse_nego_reply`; the result is `must_auth`. -/
def clientParseNegoReply (data : List UInt8) (hasAuth : Bool) : Except Error Bool :=
  if byteAt data 0 ≠ SOCKS5_VERSION then
    .error (.s5b .failed "The server is not a SOCKSv5 proxy server.")
  else if byteAt data 1 = SOCKS5_AUTH_NONE then
    .ok false
  else if byteAt data 1 = SOCKS5_AUTH_USR_PASS then
    if hasAuth then
      .ok true
    else
      .error (.s5b .needAuth "The SOCKSv5 proxy requires authentication.")
  else
    .error (.s5b .authFailed
      "The SOCKSv5 require an authentication method that is not supported.")

/-- `server_parse_nego_init`. The methods start at index 2, but the loop ends before the index
NMETHODS.
-/
def serverParseNegoInit (data : List UInt8) (datalen : Nat) : Except Error Unit :=
  if byteAt data 0 ≠ SOCKS5_VERSION then
    .error (.s5b .failed "The client is not a SOCKSv5 client.")
  else if (List.range (min datalen (byteAt data 1).toNat)).any
      (fun i => decide (2 ≤ i) && byteAt data i == 0x00) then
    .ok ()
  else
    .error (.s5b .authFailed
      "The client did not offer any authentication method we support.")

-----------------------------------------------------------------------------------------
-- Authentication
-----------------------------------------------------------------------------------------

/-- The length of a string that may be NULL. -/
def lengthOf (str : Option CString) : Nat := (str.map CString.strlen).getD 0

/-- `set_auth_msg`. A string that is too long makes it return FALSE, which its caller takes
for the length 0.
-/
def setAuthMsg (username password : Option CString) : List UInt8 :=
  if lengthOf username > SOCKS5_MAX_LEN ∨ lengthOf password > SOCKS5_MAX_LEN then
    []
  else
    SOCKS5_AUTH_VERSION :: UInt8.ofNat (lengthOf username)
      :: (username.map CString.bytes).getD []
      ++ UInt8.ofNat (lengthOf password) :: (password.map CString.bytes).getD []

def checkAuthStatus (data : List UInt8) : Except Error Unit :=
  if byteAt data 0 ≠ SOCKS5_VERSION ∨ byteAt data 1 ≠ SOCKS5_REP_SUCCEEDED then
    .error (.s5b .authFailed
      "SOCKSv5 authentication failed due to wrong username or password.")
  else
    .ok ()

-----------------------------------------------------------------------------------------
-- The request
-----------------------------------------------------------------------------------------

/-- The text that names the host, with its bytes read as characters. -/
def hostnameTooLong (hostname : CString) : String :=
  "Hostname '" ++ String.ofList (hostname.bytes.map (fun byte => Char.ofNat byte.toNat))
    ++ "' too long for SOCKSv5 protocol (maximum is 255 bytes)"

def clientSetConnectMsg (hostname : CString) (port : UInt16) : Except Error (List UInt8) :=
  if hostname.strlen > SOCKS5_MAX_LEN then
    .error (.s5b .failed (hostnameTooLong hostname))
  else
    .ok ([SOCKS5_VERSION, SOCKS5_CMD_CONNECT, SOCKS5_RESERVED, SOCKS5_ATYP_DOMAINNAME,
      UInt8.ofNat hostname.strlen] ++ hostname.bytes ++ gHtons port)

/-- `server_parse_connect_msg`: a command other than CONNECT sets the error and goes on, so the
result is `atype` with the error set so far; `g_set_error` keeps the first error.
-/
def serverParseConnectMsg (data : List UInt8) : Except Error (UInt8 × Option Error) :=
  if byteAt data 0 ≠ SOCKS5_VERSION then
    .error (.s5b .failed "The client is not a SOCKSv5 client.")
  else
    let error :=
      if byteAt data 1 ≠ SOCKS5_CMD_CONNECT then
        some (.s5b .failed "The server only supports the CONNECT command.")
      else
        none
    if byteAt data 3 = SOCKS5_ATYP_IPV4 ∨ byteAt data 3 = SOCKS5_ATYP_DOMAINNAME
        ∨ byteAt data 3 = SOCKS5_ATYP_IPV6 then
      .ok (byteAt data 3, error)
    else
      .error (error.getD (.s5b .failed "The client sent an invalid address type."))

-----------------------------------------------------------------------------------------
-- The reply
-----------------------------------------------------------------------------------------

/-- The error for a REP field other than SUCCEEDED. -/
def replyError (rep : UInt8) : Error :=
  if rep = SOCKS5_REP_SRV_FAILURE then
    .s5b .failed "Internal SOCKSv5 proxy server error."
  else if rep = SOCKS5_REP_NOT_ALLOWED then
    .s5b .notAllowed "SOCKSv5 connection not allowed by ruleset."
  else if rep = SOCKS5_REP_TTL_EXPIRED ∨ rep = SOCKS5_REP_HOST_UNREACH then
    .s5b .hostUnreachable "Host unreachable through SOCKSv5 server."
  else if rep = SOCKS5_REP_NET_UNREACH then
    .s5b .networkUnreachable "Network unreachable through SOCKSv5 proxy."
  else if rep = SOCKS5_REP_REFUSED then
    .s5b .connectionRefused "Connection refused through SOCKSv5 proxy."
  else if rep = SOCKS5_REP_CMD_NOT_SUP then
    .s5b .failed "SOCKSv5 proxy does not support 'connect' command."
  else if rep = SOCKS5_REP_ATYPE_NOT_SUP then
    { domain := .gIo, code := .failed
      message := "SOCKSv5 proxy does not support provided address type." }
  else
    { domain := .gIo, code := .failed, message := "Unkown SOCKSv5 proxy error." }

/-- `client_parse_connect_reply`; the result is `atype`. -/
def clientParseConnectReply (data : List UInt8) : Except Error UInt8 :=
  if byteAt data 0 ≠ SOCKS5_VERSION then
    .error (.s5b .failed "The server is not a SOCKSv5 proxy server.")
  else if byteAt data 1 = SOCKS5_REP_SUCCEEDED then
    if byteAt data 2 ≠ SOCKS5_RESERVED then
      .error (.s5b .failed "The server is not a SOCKSv5 proxy server.")
    else if byteAt data 3 = SOCKS5_ATYP_IPV4 ∨ byteAt data 3 = SOCKS5_ATYP_IPV6
        ∨ byteAt data 3 = SOCKS5_ATYP_DOMAINNAME then
      .ok (byteAt data 3)
    else
      .error (.s5b .failed "The SOCKSv5 proxy server uses unkown address type.")
  else
    .error (replyError (byteAt data 1))

/-- `server_set_connect_reply`: the address type is written twice. -/
def serverSetConnectReply (rep atype : UInt8) (bndaddr : List UInt8) (bndport : UInt16)
    : List UInt8 :=
  if rep ≠ SOCKS5_REP_SUCCEEDED then
    [SOCKS5_VERSION, rep]
  else if atype = SOCKS5_ATYP_IPV4 then
    [SOCKS5_VERSION, rep, 0, atype, SOCKS5_ATYP_IPV4] ++ bndaddr.take 4 ++ gHtons bndport
  else if atype = SOCKS5_ATYP_DOMAINNAME then
    let host := bndaddr.takeWhile (· != 0)
    [SOCKS5_VERSION, rep, 0, atype, SOCKS5_ATYP_DOMAINNAME, UInt8.ofNat host.length] ++ host
      ++ gHtons bndport
  else if atype = SOCKS5_ATYP_IPV6 then
    [SOCKS5_VERSION, rep, 0, atype, SOCKS5_ATYP_IPV6] ++ bndaddr.take 16 ++ gHtons bndport
  else
    []

-----------------------------------------------------------------------------------------
-- Lengths
-----------------------------------------------------------------------------------------

theorem clientSetNegoMsg_length (hasAuth : Bool)
    : (clientSetNegoMsg hasAuth).length ≤ SOCKS5_NEGO_MSG_LEN := by
  cases hasAuth <;> decide

theorem lengthOf_bytes (str : Option CString)
    : ((str.map CString.bytes).getD []).length = lengthOf str := by
  cases str <;> rfl

theorem setAuthMsg_length (username password : Option CString)
    : (setAuthMsg username password).length ≤ SOCKS5_AUTH_MSG_LEN := by
  unfold setAuthMsg
  split
  · exact Nat.zero_le _
  · rename_i short
    simp only [not_or, Nat.not_lt, SOCKS5_MAX_LEN] at short
    simp only [List.length_append, List.length_cons, lengthOf_bytes, SOCKS5_AUTH_MSG_LEN]
    omega

theorem clientSetConnectMsg_length {hostname : CString} {port : UInt16} {msg : List UInt8}
    (built : clientSetConnectMsg hostname port = .ok msg)
    : msg.length ≤ SOCKS5_CONN_MSG_LEN := by
  unfold clientSetConnectMsg at built
  split at built
  · cases built
  · rename_i short
    cases built
    simp only [CString.strlen, SOCKS5_MAX_LEN] at short
    simp [gHtons, SOCKS5_CONN_MSG_LEN]
    omega

theorem serverSetNegoReplyMsg_length (method : UInt8)
    : (serverSetNegoReplyMsg method).length ≤ SOCKS5_NEGO_REP_LEN :=
  Nat.le_refl _

end McabberJingle.Socks5
