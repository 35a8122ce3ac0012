import McabberJingle.Program.Outcome
import McabberJingle.Program.Pool
import McabberJingle.Jingle.Stanza

/-! The data of the modules: sessions and contents, file transfers, transports, ack handles
and the lists that hold them. Freed objects leave their pool, so a dangling pointer is an
address that the pool no longer knows.
-/

namespace McabberJingle

open Program

-----------------------------------------------------------------------------------------
-- Namespaces and bounds
-----------------------------------------------------------------------------------------

def NS_JINGLE := "urn:xmpp:jingle:1"
def NS_JINGLE_ERRORS := "urn:xmpp:jingle:errors:1"
def NS_XMPP_STANZAS := "urn:ietf:params:xml:ns:xmpp-stanzas"
def NS_JINGLE_APP_PREFIX := "urn:xmpp:jingle:apps:"
def NS_JINGLE_TRANSPORT_PREFIX := "urn:xmpp:jingle:transports:"
def NS_JINGLE_APP_FT := "urn:xmpp:jingle:apps:file-transfer:1"
def NS_JINGLE_APP_FT_INFO := "urn:xmpp:jingle:apps:file-transfer:info:1"
def NS_SI_FT := "http://jabber.org/protocol/si/profile/file-transfer"
def NS_JINGLE_TRANSPORT_IBB := "urn:xmpp:jingle:transports:ibb:0"
def NS_TRANSPORT_IBB := "http://jabber.org/protocol/ibb"
def NS_JINGLE_TRANSPORT_SOCKS5 := "urn:xmpp:jingle:transports:s5b:1"

def JINGLE_FT_SIZE_READ : Nat := 2048
def IBB_BLOCK_SIZE_MAX : Nat := 4096

-----------------------------------------------------------------------------------------
-- Pointers
-----------------------------------------------------------------------------------------

/-- `JingleSession *` -/
abbrev SessionPtr := Nat
/-- `JingleFT *`, the opaque `description` of a content -/
abbrev FtPtr := Nat
/-- `JingleIBB *` or `JingleS5B *`, the opaque `transport` of a content -/
abbrev TransportPtr := Nat
/-- `JingleAckHandle *` -/
abbrev AckPtr := Nat

-----------------------------------------------------------------------------------------
-- register.h
-----------------------------------------------------------------------------------------

inductive JingleTransportType where
  | streaming | datagram
  deriving DecidableEq

/-- `JingleTransportPriority`: `low` is 1, and 0 is never a valid priority. -/
abbrev JingleTransportPriority := Nat

def JINGLE_TRANSPORT_PRIO_LOW : JingleTransportPriority := 1
def JINGLE_TRANSPORT_PRIO_HIGH : JingleTransportPriority := 3

inductive JingleHandleStatus where
  | handled | notHandled | handleError
  deriving DecidableEq

/-- The enum's integer value, which is what a C condition tests. -/
def JingleHandleStatus.toNat : JingleHandleStatus → Nat
  | .handled => 0
  | .notHandled => 1
  | .handleError => 2

/-- The function table of an application module: the repository has one. -/
inductive JingleAppFuncs where
  | fileTransfer
  deriving DecidableEq

/-- The function table of a transport module. -/
inductive JingleTransportFuncs where
  | ibb | s5b
  deriving DecidableEq

structure AppHandlerEntry where
  xmlns : String
  funcs : JingleAppFuncs
  transtype : JingleTransportType

structure TransportHandlerEntry where
  xmlns : String
  funcs : JingleTransportFuncs
  transtype : JingleTransportType
  priority : JingleTransportPriority

-----------------------------------------------------------------------------------------
-- sessions.h
-----------------------------------------------------------------------------------------

inductive SessionState where
  | active | pending | ended
  deriving DecidableEq

inductive SessionOrigin where
  | incoming | outgoing
  deriving DecidableEq

/-- A content; NULL pointers are `none`. The two `supplied` fields are proof-only: the
function table and the object that come from this content's own `<content/>` (or own
application entry), which `session_add_app` and `session_add_trans` are meant to store in it.
-/
structure SessionContent where
  name : String
  state : SessionState
  xmlnsDesc : Option String
  description : Option FtPtr
  appfuncs : Option JingleAppFuncs
  xmlnsTrans : Option String
  transport : Option TransportPtr
  transfuncs : Option JingleTransportFuncs
  suppliedApp : Option (JingleAppFuncs × FtPtr)
  suppliedTrans : Option (JingleTransportFuncs × TransportPtr)

/-- `from` and `to` are called `fromJid` and `toJid`. -/
structure JingleSession where
  sid : String
  origin : SessionOrigin
  fromJid : String
  toJid : String
  content : List SessionContent

/-- The remote party: `from` of an incoming session, `to` of an outgoing one. -/
def JingleSession.recipient (js : JingleSession) : String :=
  match js.origin with
  | .incoming => js.fromJid
  | .outgoing => js.toJid

/-- `session_content`: `sid` and `from` point into the session `owner`, so they dangle once
it is freed; `name` points into a `SessionContent`, which is never freed.
-/
structure SessionContentRef where
  owner : SessionPtr
  name : String
  deriving DecidableEq

-----------------------------------------------------------------------------------------
-- filetransfer.h
-----------------------------------------------------------------------------------------

inductive JingleFTType where
  | offer | request
  deriving DecidableEq

inductive JingleFTDirection where
  | incoming | outgoing
  deriving DecidableEq

inductive JingleFTState where
  | pending | starting | ending | reject | error
  deriving DecidableEq

/-- Bytes that one `g_io_channel_read_chars` call hands out with status NORMAL. -/
structure Chunk where
  bytes : List UInt8
  nonempty : bytes ≠ []
  bounded : bytes.length ≤ JINGLE_FT_SIZE_READ

/-- One call of `g_io_channel_read_chars` before the end of the file. -/
inductive ReadResult where
  | again
  | error
  | chunk (data : Chunk)

/-- An open channel: what later reads will give (then EOF for ever), or a file being
written, with the bytes that the channel took and that have not reached the file.
-/
inductive GIOChannel where
  | reading (reads : List ReadResult)
  | writing (waiting : List UInt8)

/-- `GChecksum *`: NULL, the bytes fed so far, or freed without being reset. -/
inductive GChecksum where
  | null
  | running (data : List UInt8)
  | freed

structure JingleFT where
  date : Int
  hash : Option String
  name : String
  size : Nat
  transmit : Nat
  outfile : Option GIOChannel
  type : JingleFTType
  dir : JingleFTDirection
  state : JingleFTState
  desc : Option String
  md5 : GChecksum

-----------------------------------------------------------------------------------------
-- ibb.h and s5b.h
-----------------------------------------------------------------------------------------

/-- `buf` holds the `dataleft` bytes waiting to be sent, `sizeBuf` its allocated size (0 while
it is NULL); `bufFreed` is set once `end` has freed it.
-/
structure JingleIBB where
  blocksize : Nat
  sid : String
  buf : List UInt8
  sizeBuf : Nat
  bufFreed : Bool
  seq : Nat

/-- The field `dataleft` of the source. -/
def JingleIBB.dataleft (jibb : JingleIBB) : Nat := jibb.buf.length

inductive JingleS5BType where
  | direct | assisted | tunnel | proxy
  deriving DecidableEq

inductive JingleS5BModes where
  | tcp | udp
  deriving DecidableEq

structure S5BCandidate where
  cid : String
  host : String
  jid : String
  port : UInt16
  priority : UInt64
  type : JingleS5BType

/-- `mode` is none for the index -1 of an unknown mode. -/
structure JingleS5B where
  mode : Option JingleS5BModes
  sid : String
  candidates : List S5BCandidate
  ourcandidates : List S5BCandidate

structure LocalIP where
  address : String
  priority : UInt32

inductive Transport where
  | ibb (jibb : JingleIBB)
  | s5b (js5b : JingleS5B)

-----------------------------------------------------------------------------------------
-- jingle.h: ack handles, and what the modules have sent
-----------------------------------------------------------------------------------------

inductive JingleAckType where
  | response | timeout
  deriving DecidableEq

/-- `callback` with its `user_data`. -/
inductive AckCallback where
  | sessionInitiate (sess : SessionPtr)
  | sessionAccept (sess : SessionPtr)
  | ibbSend (sc : SessionContentRef)
  deriving DecidableEq

/-- `callback` is none for NULL, and `timeout` 0 means never. -/
structure JingleAckHandle where
  callback : Option AckCallback
  timeout : Nat
  inserted : Nat

/-- Who a session is, as fixed when it was created. -/
structure SessionIdent where
  ptr : SessionPtr
  sid : String
  origin : SessionOrigin
  fromJid : String
  toJid : String
  deriving DecidableEq

/-- The remote party of a session, also after it is gone. -/
def SessionIdent.recipient (ident : SessionIdent) : String :=
  match ident.origin with
  | .incoming => ident.fromJid
  | .outgoing => ident.toJid

def JingleSession.ident (js : JingleSession) (ptr : SessionPtr) : SessionIdent :=
  { ptr, sid := js.sid, origin := js.origin, fromJid := js.fromJid, toJid := js.toJid }

/-- A stanza given to the connection: the answer to an incoming IQ, or an IQ-set of our own
on behalf of a session.
-/
inductive Sent where
  | reply (query answer : LmMessage)
  | request (session : SessionIdent) (iq : LmMessage)

/-- The bytes that the channel of a transfer holds back from its file. -/
def JingleFT.waiting (jft : JingleFT) : List UInt8 :=
  match jft.outfile with
  | some (.writing waiting) => waiting
  | some (.reading _) => []
  | none => []

/-- What reaches the disk: a file is created or truncated, or bytes get into it. -/
inductive DiskOp where
  | created (ft : FtPtr) (path : String)
  | wrote (ft : FtPtr) (bytes : List UInt8)

/-- The transfer a disk operation belongs to. -/
def DiskOp.ft : DiskOp → FtPtr
  | .created ft _ => ft
  | .wrote ft _ => ft

/-- What `stop` tells the user about a transfer. -/
inductive StopReport where
  | incomplete | corrupt | verified | notVerified
  deriving DecidableEq

-----------------------------------------------------------------------------------------
-- Faults, surroundings and the state
-----------------------------------------------------------------------------------------

/-- What a bad pointer was supposed to point to. -/
inductive Object where
  | session | content | appfuncs | description | transfuncs | transport | ackHandle
  | listNode | checksum | buffer | channel | gerror | message | string
  deriving DecidableEq

/-- Where a run of the C code has no further meaning. -/
inductive Fault where
  | nullDeref (what : Object)
  | useAfterFree (what : Object)
  | outOfBounds
  | uninitialised
  | undefinedSymbol
  | outOfFuel
  deriving DecidableEq

/-- What reading the `next` field of an unlinked and freed list node gives: the allocator
may unmap it, clear it, or leave it as it was.
-/
inductive FreedLink where
  | traps | null | intact
  deriving DecidableEq

/-- Outcomes of the calls one `handle_data` makes: open, set the encoding, write (its
status and the bytes it took) and flush, and how many of the bytes that wait in the channel
get into the file when the write or the flush fails.
-/
structure WriteResult where
  opened : Bool
  encoded : Bool
  status : Bool
  written : Nat
  flushed : Bool
  reached : Nat

/-- What `g_stat` and `g_io_channel_new_file` report about the file of `/jft send`: whether
it is a regular file, its times and size, and the channel's later reads if it opens.
-/
structure FileInfo where
  regular : Bool
  mtime : Int
  size : Nat
  opened : Option (List ReadResult)
  encoded : Bool

/-- Functions of the libraries that the code relies on. -/
structure Env where
  checkJidSyntax : String → Bool
  jidtodisp : String → String
  pathGetBasename : String → String
  buildFilename : String → String → String
  expandFilename : String → String
  fromIso8601 : Option String → Int
  toIso8601 : Int → Option String
  md5 : List UInt8 → String
  base64Encode : List UInt8 → String
  base64Decode : String → List UInt8
  inetAddressFromString : String → Option String

/-- What the surroundings answer during one step: settings and roster, random strings,
file and connection outcomes, and the allocator.
-/
structure World where
  rosterFind : String → Bool
  jingleFtDir : Option String
  freedLink : FreedLink
  evsNew : Bool
  myJid : String
  generateSid : String
  generateTransportSid : String
  generateCid : Nat → String
  port : UInt16
  sendOk : Bool
  write : WriteResult
  /-- how many bytes of a transfer's channel its shutdown gets into the file -/
  shutdown : FtPtr → Nat
  file : Option FileInfo
  currentJid : Option String
  compatibleRes : Option String

/-- All state of the modules, and of mcabber and loudmouth as far as it is theirs: pending
events and the handlers kept for replies. From `sent` on, the fields only record.
-/
structure State where
  sessions : Pool JingleSession
  infoList : Pool JingleFT
  transports : Pool Transport
  jingleIBBs : List (String × TransportPtr)
  ackHandlers : Pool JingleAckHandle
  idHandlers : List AckPtr
  events : Pool SessionPtr
  appHandlers : List AppHandlerEntry
  transportHandlers : List TransportHandlerEntry
  localIps : List LocalIP
  clock : Nat
  sent : List Sent
  disk : List DiskOp
  stopReports : List (FtPtr × StopReport)
  /-- sessions whose invitation the user accepted -/
  accepted : List SessionPtr
  /-- sessions whose session-terminate from the peer was acknowledged -/
  closedByPeer : List SessionPtr
  /-- ack callbacks that ran, with the way they ran -/
  fired : List (AckPtr × JingleAckType)
  /-- transports whose `init` was run, with the content it was run for -/
  inits : List (SessionContentRef × TransportPtr)
  /-- contents whose application's `start` was run -/
  starts : List SessionContentRef
  /-- what the `handle` of a transport was run with -/
  handles : List (TransportPtr × LmMessageNode)
  /-- data packets, with the stream they were sent on -/
  packets : List (TransportPtr × LmMessage)
  /-- reads of a freed list node that did not trap -/
  staleReads : Nat

/-- A run of the modules' code. -/
abbrev Run (α : Type) := Prog Fault State α

end McabberJingle
