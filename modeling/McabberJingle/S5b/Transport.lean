import McabberJingle.Ibb.Transport

/-! s5b.c: the SOCKS5 bytestream as a transport. Its sockets are outside the session state. -/

namespace McabberJingle.S5b

open Program

variable (env : Env) (w : World)

def jingleS5bTypes : List String := ["direct", "assisted", "tunnel", "proxy"]

def jingleS5bModes : List String := ["tcp", "udp"]

def JingleS5BType.ofIndex : Nat → JingleS5BType
  | 0 => .direct
  | 1 => .assisted
  | 2 => .tunnel
  | _ => .proxy

def JingleS5BModes.ofIndex : Nat → JingleS5BModes
  | 0 => .tcp
  | _ => .udp

/-- `index_in_array (str, array)`; a NULL string is not found. -/
def indexInArray? (str : Option String) (array : List String) : Option Nat :=
  str.bind (fun str => indexInArray str array)

/-- One `<candidate/>`, or none where the loop skips it. -/
def parseCandidate (node : LmMessageNode) : Option S5BCandidate :=
  match node.getAttribute "cid", node.getAttribute "host", node.getAttribute "jid",
    node.getAttribute "priority" with
  | some cid, some hoststr, some jid, some prioritystr =>
      match env.inetAddressFromString hoststr,
        indexInArray? (node.getAttribute "type") jingleS5bTypes with
      | some host, some type =>
          some {
            cid
            host
            jid
            port := UInt16.ofNat (gAsciiStrtoull (node.getAttribute "port"))
            priority := UInt64.ofNat (gAsciiStrtoull (some prioritystr))
            type := JingleS5BType.ofIndex type
          }
      | _, _ => none
  | _, _, _, _ => none

/-- `g_slist_sort` with `prioritycmp`: highest priority first, stable. -/
def sortByPriority (candidates : List S5BCandidate) : List S5BCandidate :=
  candidates.mergeSort (fun c1 c2 => decide (c2.priority ≤ c1.priority))

/-- `parse_candidates`. The loop compares the name of the parent, not of the child. -/
def parseCandidates (node : LmMessageNode) : List S5BCandidate :=
  if node.name = "candidate" then
    sortByPriority (node.children.filterMap (parseCandidate env)).reverse
  else
    []

/-- The candidates of an element with another name than "candidate" are skipped. -/
theorem parseCandidates_skips {node : LmMessageNode} (other : node.name ≠ "candidate")
    : parseCandidates env node = [] :=
  if_neg other

def getOurCandidates (s : State) : List S5BCandidate :=
  sortByPriority
    (s.localIps.mapIdx (fun index lcand =>
      { cid := w.generateCid index, host := lcand.address, jid := w.myJid, port := w.port,
        priority := lcand.priority.toUInt64, type := .direct : S5BCandidate })).reverse

def newFromMessage (cn : JingleContent) : Run (Except GError TransportPtr) :=
  match cn.transport.getAttribute "sid" with
  | none =>
      pure (.error {
        code := .missing
        message := "an attribute of the transport element is missing"
      })
  | some sid => do
      let s ← Prog.get
      let p ← Ibb.newTransport (.s5b {
        mode := (indexInArray? (cn.transport.getAttribute "mode") jingleS5bModes).map
          JingleS5BModes.ofIndex
        sid
        candidates := parseCandidates env cn.transport
        ourcandidates := getOurCandidates w s
      })
      pure (.ok p)

def new : Run TransportPtr := do
  let s ← Prog.get
  Ibb.newTransport (.s5b {
    mode := some .tcp
    sid := w.generateTransportSid
    candidates := []
    ourcandidates := getOurCandidates w s
  })

/-- `handle`: a session-accept brings the peer's candidates. -/
def handle (action : JingleAction) (data : TransportPtr) (node : LmMessageNode)
    : Run JingleHandleStatus := do
  if action = .sessionAccept then
    let js5b ← readS5b data
    modifyTransport data (fun _ => .s5b { js5b with candidates := parseCandidates env node })
    pure .handled
  else if action = .transportInfo then
    let _ ← readS5b data
    pure .handled
  else
    pure .notHandled

/-- `jingle_s5b_modes[js5->mode]`; the index -1 of an unknown mode is out of bounds. -/
def modeName : Option JingleS5BModes → Run String
  | some .tcp => pure "tcp"
  | some .udp => pure "udp"
  | none => Prog.fail .outOfBounds

def typeName : JingleS5BType → String
  | .direct => "direct"
  | .assisted => "assisted"
  | .tunnel => "tunnel"
  | .proxy => "proxy"

def candidateNode (cand : S5BCandidate) : LmMessageNode :=
  element "candidate"
    [("cid", cand.cid), ("host", cand.host), ("jid", cand.jid),
      ("port", toString cand.port.toNat), ("priority", toString cand.priority.toNat),
      ("type", typeName cand.type)] []

def tomessage (data : TransportPtr) (node : LmMessageNode) : Run LmMessageNode := do
  let js5b ← readS5b data
  if (node.getChild "transport").isSome then
    pure node
  else
    let mode ← modeName js5b.mode
    pure (node.addChild (element "transport"
      [("xmlns", NS_JINGLE_TRANSPORT_SOCKS5), ("sid", js5b.sid), ("mode", mode)]
      (js5b.ourcandidates.map candidateNode)))

/-- `init` listens and connects; none of it reaches the sessions. -/
def init (_sc : SessionContentRef) (data : TransportPtr) : Run Unit := do
  let _ ← readS5b data

end McabberJingle.S5b
