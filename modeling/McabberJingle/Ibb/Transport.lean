import McabberJingle.Jingle.Access
import McabberJingle.Jingle.Check

/-! ibb.c: the in-band bytestream as a transport, and the table of incoming streams. -/

namespace McabberJingle.Ibb

open Program

variable (w : World)

/-- `g_new` of a transport object. -/
def newTransport (transport : Transport) : Run TransportPtr := do
  let p := (← Prog.get).transports.next
  Prog.modify (fun s => { s with transports := s.transports.alloc transport })
  pure p

/-- A 64-bit value stored in a `guint`. -/
def toGuint (value : Int) : Nat := (value % 0x100000000).toNat

/-- A 64-bit value stored in a `guint64`. -/
def toGuint64 (value : Int) : Nat := (value % 0x10000000000000000).toNat

/-- What `newfrommessage` reads from the element. The source's test `blocksize < 0` is on a
`guint`, so it rejects nothing.
-/
def parseTransport (node : LmMessageNode) : Except GError JingleIBB :=
  match node.getAttribute "sid", node.getAttribute "block-size" with
  | some sid, some blocksize =>
      .ok {
        blocksize := min (toGuint (gAsciiStrtoll (some blocksize))) IBB_BLOCK_SIZE_MAX
        sid
        buf := []
        sizeBuf := 0
        bufFreed := false
        seq := 0
      }
  | _, _ =>
      .error {
        code := .missing
        message := "an attribute of the transport element is missing"
      }

/-- `g_hash_table_lookup (JingleIBBs, sid)`. -/
def lookup (s : State) (sid : String) : Option TransportPtr :=
  (s.jingleIBBs.find? (fun entry => entry.1 == sid)).map Prod.snd

/-- `g_hash_table_insert (JingleIBBs, sid, ibb)`: an entry with that sid is replaced, and
the stream it held is freed by the table.
-/
def insertStream (sid : String) (p : TransportPtr) : Run Unit :=
  Prog.modify (fun s =>
    { s with
      transports :=
        match lookup s sid with
        | some replaced => s.transports.erase replaced
        | none => s.transports
      jingleIBBs := s.jingleIBBs.filter (fun entry => entry.1 != sid) ++ [(sid, p)] })

def newFromMessage (cn : JingleContent) : Run (Except GError TransportPtr) :=
  match parseTransport cn.transport with
  | .error err => pure (.error err)
  | .ok jibb => do
      let p ← newTransport (.ibb jibb)
      insertStream jibb.sid p
      pure (.ok p)

/-- `handle`: a session-accept may lower the block size. -/
def handle (action : JingleAction) (data : TransportPtr) (node : LmMessageNode)
    : Run JingleHandleStatus := do
  if action = .sessionAccept ∧ node.getAttribute "xmlns" = some NS_JINGLE_TRANSPORT_IBB then
    let blocksize := toGuint64 (gAsciiStrtoll (node.getAttribute "block-size"))
    let jibb ← readIbb data
    writeIbb data
      { jibb with blocksize := if blocksize < jibb.blocksize then blocksize else jibb.blocksize }
    pure .handled
  else
    pure .notHandled

/-- `new`: an outgoing stream, which is not entered into the table. -/
def new : Run TransportPtr :=
  newTransport (.ibb {
    blocksize := IBB_BLOCK_SIZE_MAX
    sid := w.generateTransportSid
    buf := []
    sizeBuf := 0
    bufFreed := false
    seq := 0
  })

def tomessage (data : TransportPtr) (node : LmMessageNode) : Run LmMessageNode := do
  let jibb ← readIbb data
  if (node.getChild "transport").isSome then
    pure node
  else
    pure (node.addChild (element "transport"
      [("xmlns", NS_JINGLE_TRANSPORT_IBB), ("sid", jibb.sid),
        ("block-size", toString jibb.blocksize)] []))

/-- `info` reads the block size to print it. -/
def info (data : TransportPtr) : Run Unit := do
  let _ ← readIbb data

/-- `init`: nothing to set up, and nothing is reported to the jingle module. -/
def init (_sc : SessionContentRef) (_data : TransportPtr) : Run Unit := pure ()

end McabberJingle.Ibb
