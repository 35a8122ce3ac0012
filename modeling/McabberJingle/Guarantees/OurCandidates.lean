import McabberJingle.S5b.Interfaces
import McabberJingle.Guarantees.Candidates
import McabberJingle.Program.Lists

/-! Our own SOCKS5 candidates: one for each address of the interfaces, as long as every interface
that is asked for its address has one.
-/

namespace McabberJingle

open Program
open Socks5 (GInetAddress)
open S5b

variable {inet : InetAddressFunctions}

/-- The candidates of these interfaces: one for each address offered, with this port, and no two
of the same priority.
-/
structure OneForEach (inet : InetAddressFunctions) (first : List IfAddrs) (blacklist : String)
    (port : UInt16) (candidates : List S5BCandidate) : Prop where
  hosts : (candidates.map (·.host)).Perm
    ((first.filterMap (IfAddrs.offered inet blacklist)).map inet.toString)
  ports : ∀ cand ∈ candidates, cand.port = port
  types : ∀ cand ∈ candidates, cand.type = .direct
  ordered : candidates.Pairwise (fun first later => later.priority < first.priority)

-----------------------------------------------------------------------------------------
-- Priorities
-----------------------------------------------------------------------------------------

theorem localIP_priority (thisaddr : GInetAddress) {index : Nat} (small : index < 0x10000)
    : (localIP inet thisaddr (UInt16.ofNat index)).priority.toUInt64.toNat = 8257536 + index := by
  have counter : (UInt16.ofNat index).toNat = index := UInt16.toNat_ofNat_of_lt small
  have sum : (8257536 + index) % 0x100000000 = 8257536 + index := Nat.mod_eq_of_lt (by omega)
  have base : (((1 : UInt32) <<< 16) * 126).toNat = 8257536 := by decide
  simp only [localIP, UInt32.toNat_toUInt64, UInt32.toNat_add, UInt16.toNat_toUInt32, counter,
    base, sum]

/-- A counter of 16 bits gives different priorities to fewer than 2^16 addresses. -/
theorem Discovery.of_priorities {found : List GInetAddress} (few : found.length < 0x10000)
    : ((Discovery.of inet found).addresses.map (·.priority.toUInt64)).Nodup := by
  rw [Discovery.of, List.map_reverse, List.nodup_reverse, List.nodup_iff_pairwise_ne,
    List.pairwise_map, List.pairwise_iff_getElem]
  intro i j below inside before same
  rw [List.length_mapIdx] at below inside
  have equal := congrArg UInt64.toNat same
  simp only [List.getElem_mapIdx] at equal
  rw [localIP_priority _ (Nat.lt_trans below few), localIP_priority _ (Nat.lt_trans inside few)]
    at equal
  omega

theorem Discovery.of_addresses (found : List GInetAddress)
    : ((Discovery.of inet found).addresses.map (·.address)).Perm (found.map inet.toString) := by
  have written : (found.mapIdx (fun index thisaddr =>
      localIP inet thisaddr (UInt16.ofNat index))).map (·.address) = found.map inet.toString :=
    map_mapIdx_of_same (fun _ _ => rfl)
  rw [Discovery.of, List.map_reverse, written]
  exact List.reverse_perm _

-----------------------------------------------------------------------------------------
-- get_our_candidates
-----------------------------------------------------------------------------------------

variable (w : World) (s : State)

/-- The candidates before they are sorted. -/
def ourCandidates : List S5BCandidate :=
  s.localIps.mapIdx (fun index lcand =>
    { cid := w.generateCid index, host := lcand.address, jid := w.myJid, port := w.port,
      priority := lcand.priority.toUInt64, type := .direct : S5BCandidate })

theorem ourCandidates_host : (ourCandidates w s).map (·.host) = s.localIps.map (·.address) :=
  map_mapIdx_of_same (fun _ _ => rfl)

theorem ourCandidates_priority
    : (ourCandidates w s).map (·.priority) = s.localIps.map (·.priority.toUInt64) :=
  map_mapIdx_of_same (fun _ _ => rfl)

/-- Every local address becomes one candidate; those of different priority are told apart. -/
theorem getOurCandidates_oneForEach {w : World} {s : State} {first : List IfAddrs}
    {blacklist : String} (few : first.length < 0x10000)
    (discovered : s.localIps
      = (Discovery.of inet (first.filterMap (IfAddrs.offered inet blacklist))).addresses)
    : OneForEach inet first blacklist w.port (getOurCandidates w s) := by
  have found : (first.filterMap (IfAddrs.offered inet blacklist)).length < 0x10000 :=
    Nat.lt_of_le_of_lt (List.length_filterMap_le _ _) few
  obtain ⟨same, ordered⟩ : ReadInOrder (ourCandidates w s) (getOurCandidates w s) :=
    sortByPriority_readInOrder _
  have each (cand : S5BCandidate) (member : cand ∈ getOurCandidates w s)
      : cand.port = w.port ∧ cand.type = .direct := by
    have before := same.mem_iff.mp member
    rw [ourCandidates, List.mem_mapIdx] at before
    obtain ⟨index, inside, rfl⟩ := before
    exact ⟨rfl, rfl⟩
  have different : ((getOurCandidates w s).map (·.priority)).Nodup := by
    rw [(same.map (·.priority)).nodup_iff, ourCandidates_priority, discovered]
    exact Discovery.of_priorities found
  refine ⟨?_, fun cand member => (each cand member).1, fun cand member => (each cand member).2, ?_⟩
  · refine (same.map (·.host)).trans ?_
    rw [ourCandidates_host, discovered]
    exact Discovery.of_addresses _
  · rw [List.nodup_iff_pairwise_ne, List.pairwise_map] at different
    refine (ordered.and different).imp ?_
    rintro first later ⟨notAbove, other⟩
    exact UInt64.lt_of_le_of_ne notAbove (Ne.symm other)

-----------------------------------------------------------------------------------------
-- The candidates of every list of interfaces
-----------------------------------------------------------------------------------------

/-- The addresses of the interfaces are found, and whenever candidates are asked for then, there is
one for each.
-/
def CandidatesComplete (inet : InetAddressFunctions) (first : List IfAddrs) (blacklist : String)
    : Prop :=
  ∃ ips, getAllLocalIps inet (some first) (some blacklist) = .ok ips
    ∧ ∀ w s, s.localIps = ips → OneForEach inet first blacklist w.port (getOurCandidates w s)

theorem our_candidates_complete (inet : InetAddressFunctions) (first : List IfAddrs)
    (few : first.length < 0x10000) (blacklist : String)
    : CandidatesComplete inet first blacklist
      ↔ ∀ ifaddr ∈ first, ifaddr.isUp → ¬ifaddr.isLoopback → ifaddr.name ∉ gStrsplit blacklist →
          ifaddr.addr ≠ none := by
  constructor
  · rintro ⟨ips, ends, _⟩ ifaddr member up other listed
    exact (getAllLocalIps_ok_iff.mp ends).1 ifaddr member ⟨up, other, listed⟩
  · intro usable
    refine ⟨_, getAllLocalIps_ok_iff.mpr ⟨?_, rfl⟩, ?_⟩
    · exact fun ifaddr member wanted => usable ifaddr member wanted.1 wanted.2.1 wanted.2.2
    · exact fun w s discovered => getOurCandidates_oneForEach few discovered

/-- No address is link-local, and all are written alike. -/
def plainInet : InetAddressFunctions where
  isLinkLocal _ := false
  toString _ := "192.168.2.7"

/-- The loopback interface, and one that is up. -/
def twoInterfaces : List IfAddrs :=
  [{ name := "lo", flags := 0x49, addr := some .other },
    { name := "eth0", flags := 0x1043, addr := some (.inet #v[192, 168, 2, 7]) }]

theorem our_candidates_complete_two : CandidatesComplete plainInet twoInterfaces "" := by
  refine (our_candidates_complete plainInet twoInterfaces (by decide) "").mpr ?_
  rintro ifaddr member _ _ _
  rcases List.mem_pair.mp member with rfl | rfl
  · exact Option.some_ne_none _
  · exact Option.some_ne_none _

/-- A tunnel without an address is up: its missing address is read. -/
theorem tunnel_without_address
    : getAllLocalIps plainInet
          (some (twoInterfaces ++ [{ name := "tun0", flags := 0x10d1, addr := none }])) (some "")
        = .error .nullAddress
      ∧ ¬CandidatesComplete plainInet
          (twoInterfaces ++ [{ name := "tun0", flags := 0x10d1, addr := none }]) "" := by
  have fails : getAllLocalIps plainInet
      (some (twoInterfaces ++ [{ name := "tun0", flags := 0x10d1, addr := none }])) (some "")
      = .error .nullAddress := by
    rfl
  refine ⟨fails, ?_⟩
  rintro ⟨ips, ends, _⟩
  rw [fails] at ends
  cases ends

end McabberJingle
