import McabberJingle.Jingle.Numbers
import McabberJingle.System.Execution

/-! SOCKS5 candidates on the wire. Every field survives the way through text, but the loop that
reads them back tests the name of the wrong element and skips them all.
-/

namespace McabberJingle

open Program Program.Prog

variable {env : Env}

-----------------------------------------------------------------------------------------
-- What should be read
-----------------------------------------------------------------------------------------

/-- An unsigned decimal number below a bound. -/
def decimalBelow (bound : Nat) (text : String) : Option Nat :=
  (decimalInteger text).bind (fun n =>
    if 0 ≤ n ∧ n < (bound : Int) then some n.toNat else none)

/-- The candidate that a well-formed element denotes. -/
def wellFormedCandidate (env : Env) (node : LmMessageNode) : Option S5BCandidate :=
  if node.name = "candidate" then do
    let cid ← node.getAttribute "cid"
    let jid ← node.getAttribute "jid"
    let host ← (node.getAttribute "host").bind env.inetAddressFromString
    let port ← (node.getAttribute "port").bind (decimalBelow 0x10000)
    let priority ← (node.getAttribute "priority").bind (decimalBelow 0x10000000000000000)
    let type ← S5b.indexInArray? (node.getAttribute "type") S5b.jingleS5bTypes
    some {
      cid, host, jid, port := UInt16.ofNat port, priority := UInt64.ofNat priority
      type := S5b.JingleS5BType.ofIndex type
    }
  else
    none

/-- Exactly these candidates were read, highest priority first. -/
structure ReadInOrder (candidates parsed : List S5BCandidate) : Prop where
  same : parsed.Perm candidates
  ordered : parsed.Pairwise (fun first later => later.priority ≤ first.priority)

/-- The `<transport/>` element of a list of candidates. -/
def candidatesElement (sid mode : String) (candidates : List S5BCandidate) : LmMessageNode :=
  element "transport" [("xmlns", NS_JINGLE_TRANSPORT_SOCKS5), ("sid", sid), ("mode", mode)]
    (candidates.map S5b.candidateNode)

-----------------------------------------------------------------------------------------
-- One candidate
-----------------------------------------------------------------------------------------

/-- The addresses of the candidates are written as they are read. -/
def AddressesDocumented (env : Env) (candidates : List S5BCandidate) : Prop :=
  ∀ cand ∈ candidates, env.inetAddressFromString cand.host = some cand.host

theorem typeName_read (type : JingleS5BType)
    : (S5b.indexInArray? (some (S5b.typeName type)) S5b.jingleS5bTypes).map
        S5b.JingleS5BType.ofIndex = some type := by
  cases type <;> decide +kernel

/-- What is written for a candidate denotes it. -/
theorem parseCandidate_candidateNode {cand : S5BCandidate}
    (address : env.inetAddressFromString cand.host = some cand.host)
    : S5b.parseCandidate env (S5b.candidateNode cand) = some cand := by
  obtain ⟨index, found, type⟩ := Option.map_eq_some_iff.mp (typeName_read cand.type)
  have port : UInt16.ofNat (gAsciiStrtoull (some cand.port.toNat.repr)) = cand.port := by
    change UInt16.ofNat (gAsciiStrtoull (some (toString cand.port.toNat))) = cand.port
    rw [gAsciiStrtoull_toString, UInt16.ofNat_toNat]
    exact Nat.le_of_lt (Nat.lt_trans cand.port.toNat_lt (by decide))
  have priority : UInt64.ofNat (gAsciiStrtoull (some cand.priority.toNat.repr))
      = cand.priority := by
    change UInt64.ofNat (gAsciiStrtoull (some (toString cand.priority.toNat))) = cand.priority
    rw [gAsciiStrtoull_toString, UInt64.ofNat_toNat]
    exact Nat.le_of_lt_succ cand.priority.toNat_lt
  simp [S5b.parseCandidate, S5b.candidateNode, LmMessageNode.getAttribute, element, address, found,
    port, priority, type]

-----------------------------------------------------------------------------------------
-- The list
-----------------------------------------------------------------------------------------

theorem sortByPriority_readInOrder (candidates : List S5BCandidate)
    : ReadInOrder candidates (S5b.sortByPriority candidates.reverse) := by
  have sorted : (S5b.sortByPriority candidates.reverse).Pairwise
      (fun first later => decide (later.priority ≤ first.priority) = true) := by
    refine List.pairwise_mergeSort ?_ ?_ candidates.reverse
    · intro first second third ahead later
      exact decide_eq_true (UInt64.le_trans (of_decide_eq_true later) (of_decide_eq_true ahead))
    · intro first second
      rw [Bool.or_eq_true, decide_eq_true_iff, decide_eq_true_iff]
      exact UInt64.le_total _ _
  exact ⟨(List.mergeSort_perm _ _).trans (List.reverse_perm _), sorted.imp of_decide_eq_true⟩

/-- Nothing is read exactly when there was nothing to read. -/
theorem readInOrder_nil_iff {candidates : List S5BCandidate}
    : ReadInOrder candidates [] ↔ candidates = [] := by
  constructor
  · exact fun read => List.nil_perm.mp read.same
  · rintro rfl
    exact ⟨.refl _, List.Pairwise.nil⟩

/-- Were the element called "candidate", the loop would read back what was written. -/
theorem parseCandidates_renamed (sid mode : String) {candidates : List S5BCandidate}
    (addresses : AddressesDocumented env candidates)
    : ReadInOrder candidates
        (S5b.parseCandidates env
          { candidatesElement sid mode candidates with name := "candidate" }) := by
  have read : ((candidatesElement sid mode candidates).children.filterMap
      (S5b.parseCandidate env)) = candidates := by
    simp only [candidatesElement, element, List.filterMap_map]
    refine (List.filterMap_congr (fun cand member => ?_)).trans List.filterMap_some
    exact parseCandidate_candidateNode (addresses cand member)
  rw [S5b.parseCandidates, if_pos rfl]
  dsimp only
  rw [read]
  exact sortByPriority_readInOrder candidates

/-- `tomessage` adds the element of its candidates. -/
theorem tomessage_candidates {s : State} {t : TransportPtr} {js5b : JingleS5B}
    {mode : JingleS5BModes} (found : s.transports.get? t = some (.s5b js5b))
    (known : js5b.mode = some mode) {node : LmMessageNode}
    (free : node.getChild "transport" = none)
    : ∃ modestr, S5b.tomessage t node s
        = .done (node.addChild (candidatesElement js5b.sid modestr js5b.ourcandidates)) s := by
  rw [S5b.tomessage, bind_done (readS5b_done found), free]
  cases mode with
  | tcp =>
      refine ⟨"tcp", ?_⟩
      rw [known]
      rfl
  | udp =>
      refine ⟨"udp", ?_⟩
      rw [known]
      rfl

-----------------------------------------------------------------------------------------
-- The round trip
-----------------------------------------------------------------------------------------

/-- What `tomessage` writes is read back only if there are no candidates, although it would be
under the name that the loop tests; and of any `<transport/>` element the candidates are read only
if none is well formed.
-/
theorem candidates_read_back (env : Env)
    : (∀ s t js5b mode node, s.transports.get? t = some (.s5b js5b) → js5b.mode = some mode →
        node.getChild "transport" = none → AddressesDocumented env js5b.ourcandidates →
        ∃ transport, S5b.tomessage t node s = .done (node.addChild transport) s
          ∧ (ReadInOrder js5b.ourcandidates (S5b.parseCandidates env transport)
            ↔ js5b.ourcandidates = [])
          ∧ ReadInOrder js5b.ourcandidates
              (S5b.parseCandidates env { transport with name := "candidate" }))
      ∧ ∀ node : LmMessageNode, node.name = "transport" →
          (ReadInOrder (node.children.filterMap (wellFormedCandidate env))
              (S5b.parseCandidates env node)
            ↔ ∀ child ∈ node.children, wellFormedCandidate env child = none) := by
  constructor
  · intro s t js5b mode node found known free addresses
    obtain ⟨modestr, written⟩ := tomessage_candidates found known free
    refine ⟨_, written, ?_, parseCandidates_renamed _ _ addresses⟩
    have other : (candidatesElement js5b.sid modestr js5b.ourcandidates).name ≠ "candidate" := by
      change "transport" ≠ "candidate"
      decide
    rw [S5b.parseCandidates_skips _ other, readInOrder_nil_iff]
  · intro node named
    rw [S5b.parseCandidates_skips _ (by rw [named]; decide), readInOrder_nil_iff,
      List.filterMap_eq_nil_iff]

/-- A candidate for the local host. -/
def localCandidate : S5BCandidate where
  cid := "c1"
  host := "127.0.0.1"
  jid := "me@here/mcabber"
  port := 5000
  priority := 8257536
  type := .direct

/-- A transport that offers it. -/
def localTransport : State :=
  { loaded with
    transports := (Pool.empty 0).alloc (.s5b {
      mode := some .tcp, sid := "s5b", candidates := [], ourcandidates := [localCandidate] }) }

/-- Every address is read as itself. -/
def addressEnv : Env := { plainEnv with inetAddressFromString := some }

theorem candidates_read_back_local
    : ∃ transport, S5b.tomessage 0 (element "content" [] []) localTransport
          = .done ((element "content" [] []).addChild transport) localTransport
        ∧ ReadInOrder [localCandidate]
            (S5b.parseCandidates addressEnv { transport with name := "candidate" }) := by
  obtain ⟨transport, written, _, renamed⟩ := (candidates_read_back addressEnv).1 localTransport 0
    _ .tcp (element "content" [] []) rfl rfl rfl (fun _ _ => rfl)
  exact ⟨transport, written, renamed⟩

/-- The only candidate of a transport is written, and lost when it is read. -/
theorem candidate_lost
    : ∃ transport, S5b.tomessage 0 (element "content" [] []) localTransport
          = .done ((element "content" [] []).addChild transport) localTransport
        ∧ S5b.parseCandidates addressEnv transport = []
        ∧ ¬ReadInOrder [localCandidate] (S5b.parseCandidates addressEnv transport) := by
  refine ⟨candidatesElement "s5b" "tcp" [localCandidate], rfl, rfl, fun read => ?_⟩
  have none : [localCandidate] = [] := readInOrder_nil_iff.mp read
  cases none

end McabberJingle
