import McabberJingle.Program.Runs
import McabberJingle.Socks5.Negotiation

/-! Reads and writes of the SOCKS5 negotiation stay inside the buffer on the client's side,
unless the proxy names a host of more than 253 bytes; the first read of the server does not.
-/

namespace McabberJingle.Socks5

open Program

variable {memory : Uninitialised} {n : Negotiation} {data : ConnectAsyncData}

-----------------------------------------------------------------------------------------
-- Bounds
-----------------------------------------------------------------------------------------

/-- What the pending read or write touches lies inside the buffer. -/
structure Bounded (data : ConnectAsyncData) : Prop where
  offset : data.offset ≤ data.length
  length : data.length ≤ data.buffer.length

instance (data : ConnectAsyncData) : Decidable (Bounded data) :=
  decidable_of_iff (data.offset ≤ data.length ∧ data.length ≤ data.buffer.length)
    ⟨fun both => ⟨both.1, both.2⟩, fun both => ⟨both.offset, both.length⟩⟩

/-- A pending read or write is bounded, and nothing was stored or built past the buffer. -/
def InBounds (n : Negotiation) : Prop :=
  match n.next with
  | .reading _ => Bounded n.data
  | .writing _ => Bounded n.data
  | .completed _ => True
  | .undefined what => what ≠ .outOfBounds

instance (n : Negotiation) : Decidable (InBounds n) := by
  unfold InBounds
  split <;> infer_instance

-----------------------------------------------------------------------------------------
-- The invariant
-----------------------------------------------------------------------------------------

/-- The size of the buffer that holds what the other side says about the connection: 255 for
a client and 262 for a server.
-/
abbrev IsClient (size : Nat) : Prop := size = SOCKS5_CONN_REP_LEN

abbrev IsServer (size : Nat) : Prop := size = SOCKS5_CONN_MSG_LEN

/-- What holds of a negotiation, by what it waits for. -/
def Sound (size : Nat) (n : Negotiation) : Prop :=
  match n.next with
  | .writing .negoMsg => Bounded n.data ∧ IsClient size
  | .writing .authMsg => Bounded n.data ∧ IsClient size
  | .writing .connectMsg => Bounded n.data ∧ IsClient size
  | .writing .negoReply => Bounded n.data ∧ IsServer size
  | .writing .noSupportedMethod => Bounded n.data
  | .writing .connectReply => Bounded n.data
  | .reading .negoMsg => IsServer size ∧ n.data.length = SOCKS5_NEGO_MSG_MAX_LEN
      ∧ n.data.buffer.length = SOCKS5_NEGO_MSG_LEN
  | .reading .negoReply => Bounded n.data ∧ IsClient size
  | .reading .authReply => Bounded n.data ∧ IsClient size
  | .reading .connectMsg => Bounded n.data ∧ n.data.buffer.length = size ∧ IsServer size
  | .reading .connectAddrLen => Bounded n.data ∧ n.data.buffer.length = size ∧ IsServer size
  | .reading .connectAddr => Bounded n.data ∧ n.data.buffer.length = size ∧ 18 ≤ size
  | .reading .connectReply => Bounded n.data ∧ n.data.buffer.length = size ∧ 18 ≤ size
  | .reading .connectReplyAddr => Bounded n.data ∧ n.data.buffer.length = size ∧ 18 ≤ size
  | .reading .connectReplyAddrLen => Bounded n.data ∧ n.data.buffer.length = size ∧ 18 ≤ size
      ∧ n.data.offset = 0 ∧ n.data.length = 1 ∧ byteAt n.data.buffer 0 = SOCKS5_VERSION
  | .completed _ => True
  | .undefined what => what = .outOfBounds → IsServer size

/-- One step of a negotiation is sound when the bounds of what it issues are. -/
theorem Bounded.advance {count : Nat} (bounded : Bounded data)
    (fits : count ≤ data.length - data.offset)
    : Bounded { data with offset := data.offset + count } := by
  have below := bounded.offset
  exact ⟨by dsimp only; omega, bounded.length⟩

section Callbacks

variable {size count : Nat} {msg : List UInt8}

theorem sound_written {again : WriteCallback} {done : ConnectAsyncData → Negotiation}
    (bounded : Bounded data) (fits : count ≤ data.length - data.offset)
    (more : ∀ data', Bounded data' → Sound size (data'.doWrite again))
    (finish : ∀ data', Bounded data' → Sound size (done data'))
    : Sound size (data.written again done count) := by
  unfold ConnectAsyncData.written
  dsimp only
  split
  · exact finish _ (bounded.advance fits)
  · exact more _ (bounded.advance fits)

theorem sound_filled {again : ReadCallback} {done : ConnectAsyncData → Negotiation}
    (bounded : Bounded data) (fits : count ≤ data.length - data.offset)
    (more : ∀ data', Bounded data' → data'.buffer = data.buffer → Sound size (data'.doRead again))
    (finish : ∀ data', Bounded data' → data'.buffer = data.buffer → Sound size (done data'))
    : Sound size (data.filled again done count) := by
  unfold ConnectAsyncData.filled
  dsimp only
  split
  · exact finish _ (bounded.advance fits) rfl
  · exact more _ (bounded.advance fits) rfl

theorem bounded_built {capacity : Nat} (msg : List UInt8)
    : Bounded { data with
        buffer := msg ++ List.replicate (capacity - msg.length) 0
        length := msg.length
        offset := 0 } :=
  ⟨Nat.zero_le _, by simp⟩

theorem bounded_expected {capacity length : Nat} (fits : length ≤ capacity)
    : Bounded { data with buffer := List.replicate capacity 0, length, offset := 0 } :=
  ⟨Nat.zero_le _, by simpa using fits⟩

theorem bounded_refilled {length : Nat} (fits : length ≤ data.buffer.length)
    : Bounded { data with length, offset := 0 } :=
  ⟨Nat.zero_le _, fits⟩

theorem sound_sendConnectMsg (client : IsClient size) : Sound size data.sendConnectMsg := by
  unfold ConnectAsyncData.sendConnectMsg
  split
  · trivial
  · rename_i msg built
    rw [build_eq (clientSetConnectMsg_length built)]
    exact ⟨bounded_built msg, client⟩

/-- The callbacks of writes. -/
theorem sound_wrote {callback : WriteCallback}
    (sound : Sound size { data, next := .writing callback })
    (fits : count ≤ data.length - data.offset)
    : Sound size (callback.run data count) := by
  cases callback with
  | negoMsg =>
      obtain ⟨bounded, client⟩ := sound
      exact sound_written bounded fits (fun _ bounded' => ⟨bounded', client⟩)
        (fun _ _ => ⟨bounded_expected (Nat.le_refl _), client⟩)
  | noSupportedMethod =>
      exact sound_written sound fits (fun _ bounded' => bounded') (fun _ _ => trivial)
  | negoReply =>
      obtain ⟨bounded, server⟩ := sound
      refine sound_written bounded fits (fun _ bounded' => ⟨bounded', server⟩) (fun _ _ => ?_)
      exact ⟨bounded_expected (by decide), (List.length_replicate).trans server.symm, server⟩
  | authMsg =>
      obtain ⟨bounded, client⟩ := sound
      exact sound_written bounded fits (fun _ bounded' => ⟨bounded', client⟩)
        (fun _ _ => ⟨bounded_expected (Nat.le_refl _), client⟩)
  | connectMsg =>
      obtain ⟨bounded, client⟩ := sound
      refine sound_written bounded fits (fun _ bounded' => ⟨bounded', client⟩) (fun _ _ => ?_)
      exact ⟨bounded_expected (by decide), (List.length_replicate).trans client.symm,
        client ▸ (by decide)⟩
  | connectReply =>
      exact sound_written sound fits (fun _ bounded' => bounded') (fun _ _ => trivial)

/-- What storing the bytes of a read leaves. -/
structure Stored (data : ConnectAsyncData) (bytes : List UInt8) (data' : ConnectAsyncData)
    : Prop where
  length : data'.length = data.length
  offset : data'.offset = data.offset
  size : data'.buffer.length = data.buffer.length
  buffer : data'.buffer = data.buffer.take data.offset ++ bytes
    ++ data.buffer.drop (data.offset + bytes.length)

theorem store_stored {bytes : List UInt8} {data' : ConnectAsyncData}
    (stored : data.store bytes = some data')
    : Stored data bytes data' := by
  unfold ConnectAsyncData.store at stored
  split at stored
  · rename_i fits
    cases stored
    refine ⟨rfl, rfl, ?_, rfl⟩
    simp only [List.length_append, List.length_take, List.length_drop]
    omega
  · cases stored

theorem store_isSome {bytes : List UInt8} (bounded : Bounded data)
    (fits : bytes.length ≤ data.length - data.offset)
    : ∃ data', data.store bytes = some data' := by
  have inside : data.offset + bytes.length ≤ data.buffer.length := by
    have below := bounded.offset
    have within := bounded.length
    omega
  exact ⟨_, if_pos inside⟩

theorem Stored.bounded {bytes : List UInt8} {data' : ConnectAsyncData}
    (stored : Stored data bytes data') (bounded : Bounded data)
    : Bounded data' := by
  have below := bounded.offset
  have within := bounded.length
  refine ⟨?_, ?_⟩
  · rw [stored.offset, stored.length]
    exact below
  · rw [stored.length, stored.size]
    exact within

/-- A reply that was parsed starts with the version. -/
theorem clientParseConnectReply_version {buffer : List UInt8} {atype : UInt8}
    (parsed : clientParseConnectReply buffer = .ok atype)
    : byteAt buffer 0 = SOCKS5_VERSION := by
  unfold clientParseConnectReply at parsed
  split at parsed
  · cases parsed
  · rename_i version
    exact Decidable.not_not.mp version

theorem sound_negoMsgReadCb (server : IsServer size) (asked : data.length = SOCKS5_NEGO_MSG_MAX_LEN)
    (small : data.buffer.length = SOCKS5_NEGO_MSG_LEN)
    : Sound size (data.negoMsgReadCb memory count) := by
  unfold ConnectAsyncData.negoMsgReadCb ConnectAsyncData.onNegoMsg
  dsimp only
  split
  · split
    · rw [build_eq (serverSetNegoReplyMsg_length _)]
      exact ⟨bounded_built _, server⟩
    · split
      · exact fun _ => server
      · split
        · rw [build_eq (serverSetNegoReplyMsg_length _)]
          exact bounded_built _
        · trivial
  · exact ⟨server, asked, small⟩

theorem sound_negoReplyReadCb (client : IsClient size) (bounded : Bounded data)
    (fits : count ≤ data.length - data.offset)
    : Sound size (data.negoReplyReadCb memory count) := by
  refine sound_filled bounded fits (fun _ bounded' _ => ⟨bounded', client⟩) (fun data' _ _ => ?_)
  unfold ConnectAsyncData.onNegoReply
  split
  · cases memory with
    | null => trivial
    | wild => exact fun overflow => by cases overflow
  · rw [build_eq (setAuthMsg_length _ _)]
    exact ⟨bounded_built _, client⟩
  · exact sound_sendConnectMsg client

theorem sound_authReplyReadCb (client : IsClient size) (bounded : Bounded data)
    (fits : count ≤ data.length - data.offset)
    : Sound size (data.authReplyReadCb count) := by
  refine sound_filled bounded fits (fun _ bounded' _ => ⟨bounded', client⟩) (fun data' _ _ => ?_)
  unfold ConnectAsyncData.onAuthReply
  split
  · trivial
  · exact sound_sendConnectMsg client

theorem sound_connectMsgReadCb (server : IsServer size) (bounded : Bounded data)
    (sized : data.buffer.length = size) (fits : count ≤ data.length - data.offset)
    : Sound size (data.connectMsgReadCb count) := by
  refine sound_filled bounded fits (fun _ bounded' same => ⟨bounded', same ▸ sized, server⟩)
    (fun data' _ same => ?_)
  unfold ConnectAsyncData.onConnectMsg
  split
  · trivial
  · split
    · have room : 1 ≤ data'.buffer.length := by
        rw [same, sized, server]
        decide
      exact ⟨bounded_refilled room, same ▸ sized, server⟩
    · trivial

theorem sound_connectAddrReadCb (sized : data.buffer.length = size) (wide : 18 ≤ size)
    (bounded : Bounded data) (fits : count ≤ data.length - data.offset)
    : Sound size (data.connectAddrReadCb count) := by
  refine sound_filled bounded fits (fun _ bounded' same => ⟨bounded', same ▸ sized, wide⟩)
    (fun data' _ _ => ?_)
  unfold ConnectAsyncData.onConnectAddr
  split
  · split
    · exact fun overflow => by cases overflow
    · rw [build_eq (connectReply_length _)]
      exact bounded_built _
  · trivial

theorem sound_connectReplyReadCb (sized : data.buffer.length = size) (wide : 18 ≤ size)
    (bounded : Bounded data) (fits : count ≤ data.length - data.offset)
    : Sound size (data.connectReplyReadCb count) := by
  refine sound_filled bounded fits (fun _ bounded' same => ⟨bounded', same ▸ sized, wide⟩)
    (fun data' _ same => ?_)
  have room {length : Nat} (fits : length ≤ 18) : length ≤ data'.buffer.length := by
    rw [same, sized]
    exact Nat.le_trans fits wide
  unfold ConnectAsyncData.onConnectReply
  split
  · trivial
  · rename_i atype parsed
    split
    · exact ⟨bounded_refilled (room (by decide)), same ▸ sized, wide⟩
    · split
      · exact ⟨bounded_refilled (room (by decide)), same ▸ sized, wide⟩
      · exact ⟨bounded_refilled (room (by decide)), same ▸ sized, wide, rfl, rfl,
          clientParseConnectReply_version parsed⟩

/-- The callback of a read whose bytes were stored; the length byte of a host must fit. -/
theorem sound_received {callback : ReadCallback} {bytes : List UInt8} {data' : ConnectAsyncData}
    (sound : Sound size { data, next := .reading callback })
    (stored : Stored data bytes data') (fits : bytes.length ≤ data.length - data.offset)
    (short : callback = .connectReplyAddrLen → ∀ byte, bytes = [byte] → byte.toNat + 2 ≤ size)
    : Sound size (callback.run memory data' bytes.length) := by
  have fits' : bytes.length ≤ data'.length - data'.offset := by
    rw [stored.length, stored.offset]
    exact fits
  cases callback with
  | negoMsg =>
      obtain ⟨server, asked, small⟩ := sound
      exact sound_negoMsgReadCb server (stored.length.trans asked) (stored.size.trans small)
  | negoReply =>
      obtain ⟨bounded, client⟩ := sound
      exact sound_negoReplyReadCb client (stored.bounded bounded) fits'
  | authReply =>
      obtain ⟨bounded, client⟩ := sound
      exact sound_authReplyReadCb client (stored.bounded bounded) fits'
  | connectMsg =>
      obtain ⟨bounded, sized, server⟩ := sound
      exact sound_connectMsgReadCb server (stored.bounded bounded) (stored.size.trans sized) fits'
  | connectAddrLen =>
      obtain ⟨bounded, sized, server⟩ := sound
      have byte := (byteAt data'.buffer 0).toNat_lt
      have room : (byteAt data'.buffer 0).toNat + 2 ≤ data'.buffer.length := by
        rw [stored.size, sized, server, SOCKS5_CONN_MSG_LEN]
        omega
      exact ⟨bounded_refilled room, stored.size.trans sized, server ▸ (by decide)⟩
  | connectAddr =>
      obtain ⟨bounded, sized, wide⟩ := sound
      exact sound_connectAddrReadCb (stored.size.trans sized) wide (stored.bounded bounded) fits'
  | connectReply =>
      obtain ⟨bounded, sized, wide⟩ := sound
      exact sound_connectReplyReadCb (stored.size.trans sized) wide (stored.bounded bounded) fits'
  | connectReplyAddrLen =>
      obtain ⟨bounded, sized, wide, start, one, version⟩ := sound
      dsimp only at start one version
      have room : (byteAt data'.buffer 0).toNat + 2 ≤ size := by
        rw [stored.buffer, start]
        rcases bytes with _ | ⟨byte, _ | ⟨other, rest⟩⟩
        · have old : byteAt data.buffer 0 = 5 := version
          simp [byteAt] at old ⊢
          rw [old]
          exact Nat.le_trans (by decide) wide
        · simpa [byteAt] using short rfl byte rfl
        · rw [one, start] at fits
          simp at fits
      refine ⟨bounded_refilled ?_, stored.size.trans sized, wide⟩
      rw [stored.size, sized]
      exact room
  | connectReplyAddr =>
      obtain ⟨bounded, sized, wide⟩ := sound
      refine sound_filled (stored.bounded bounded) fits' (fun _ bounded' same => ?_)
        (fun _ _ _ => trivial)
      exact ⟨bounded', (congrArg List.length same).trans (stored.size.trans sized), wide⟩

/-- The only byte that was read. -/
def IoEvent.single : IoEvent → Option UInt8
  | .read [byte] => some byte
  | _ => none

/-- Every end of a read or a write. -/
theorem Sound.ends {event : IoEvent} (sound : Sound size n) (can : n.CanEnd event)
    (short : n.next = .reading .connectReplyAddrLen → ∀ byte ∈ event.single,
      byte.toNat + 2 ≤ size)
    : Sound size (n.ends memory event) := by
  cases can.ending with
  | wrote callback count fits => exact sound_wrote sound fits
  | @read data callback bytes fits =>
      simp only [Negotiation.ends]
      cases kept : data.store bytes with
      | some data' =>
          refine sound_received sound (store_stored kept) fits (fun len byte same => ?_)
          subst same
          exact short (congrArg Next.reading len) byte rfl
      | none =>
          have unbounded (bounded : Bounded data) : False := by
            obtain ⟨data', stored⟩ := store_isSome bounded fits
            cases kept.symm.trans stored
          cases callback with
          | negoMsg => exact fun _ => sound.1
          | _ => exact (unbounded sound.1).elim
  | failedWrite callback => trivial
  | failedRead callback => trivial

end Callbacks

-----------------------------------------------------------------------------------------
-- Runs
-----------------------------------------------------------------------------------------

/-- The pending read or write of `n` ends, and the callback leaves `n'`. -/
def Io (memory : Uninitialised) (n : Negotiation) (event : IoEvent) (n' : Negotiation) : Prop :=
  n.CanEnd event ∧ n' = n.ends memory event

/-- The states of our client that asks for the host, while steps meet the condition. -/
abbrev ClientRun (memory : Uninitialised) (hostname : CString)
    : (Negotiation → IoEvent → Prop) → Negotiation → Prop :=
  Reach (fun n => n = socks5ClientNego hostname) (Io memory)

/-- The states of our server. -/
abbrev ServerRun (memory : Uninitialised) (allowedHostname : CString)
    (externalAddress : GInetSocketAddress)
    : (Negotiation → IoEvent → Prop) → Negotiation → Prop :=
  Reach (fun n => n = socks5ServerNego allowedHostname externalAddress) (Io memory)

/-- The length byte of a host name in the reply is below 254. -/
def ShortName (n : Negotiation) (event : IoEvent) : Prop :=
  n.next = .reading .connectReplyAddrLen → ∀ byte ∈ event.single, byte.toNat < 254

instance (n : Negotiation) (event : IoEvent) : Decidable (ShortName n event) :=
  decidable_of_iff
    (n.next = .reading .connectReplyAddrLen →
      event.single.all (fun byte => decide (byte.toNat < 254)) = true)
    (by simp [ShortName, Option.all_eq_true])

theorem sound_client {hostname : CString} (run : ClientRun memory hostname ShortName n)
    : Sound SOCKS5_CONN_REP_LEN n := by
  induction run with
  | start same =>
      subst same
      rw [socks5ClientNego, build_eq (clientSetNegoMsg_length _)]
      exact ⟨bounded_built _, rfl⟩
  | step run short next ih =>
      obtain ⟨can, rfl⟩ := next
      refine ih.ends can (fun reading byte same => ?_)
      have below := short reading byte same
      rw [SOCKS5_CONN_REP_LEN]
      omega

theorem sound_server {allowedHostname : CString} {externalAddress : GInetSocketAddress}
    (run : ServerRun memory allowedHostname externalAddress (fun _ _ => True) n)
    : Sound SOCKS5_CONN_MSG_LEN n := by
  induction run with
  | start same =>
      subst same
      exact ⟨rfl, rfl, List.length_replicate⟩
  | step run _ next ih =>
      obtain ⟨can, rfl⟩ := next
      refine ih.ends can (fun reading byte same => ?_)
      have below := byte.toNat_lt
      rw [SOCKS5_CONN_MSG_LEN]
      omega

/-- A sound negotiation is in bounds, but for the first read of a server. -/
theorem Sound.inBounds_iff {size : Nat} (sound : Sound size n)
    : InBounds n ↔ n.next ≠ .reading .negoMsg ∧ n.next ≠ .undefined .outOfBounds := by
  obtain ⟨data, next⟩ := n
  cases next with
  | reading callback =>
      cases callback with
      | negoMsg =>
          obtain ⟨_, asked, small⟩ := sound
          refine ⟨fun bounded => ?_, fun other => absurd rfl other.1⟩
          have fits := Bounded.length bounded
          dsimp only at fits asked small
          rw [asked, small] at fits
          exact absurd fits (by decide)
      | _ => exact ⟨fun _ => ⟨by simp, by simp⟩, fun _ => sound.1⟩
  | writing callback =>
      refine ⟨fun _ => ⟨by simp, by simp⟩, fun _ => ?_⟩
      cases callback with
      | noSupportedMethod => exact sound
      | connectReply => exact sound
      | _ => exact sound.1
  | completed completion => exact ⟨fun _ => ⟨by simp, by simp⟩, fun _ => trivial⟩
  | undefined what => simp [InBounds]

theorem event_of_single {event : IoEvent} {byte : UInt8} (single : byte ∈ event.single)
    : event = .read [byte] := by
  unfold IoEvent.single at single
  split at single
  · cases single
    rfl
  · cases single

/-- A long name overruns the buffer of a client. -/
theorem long_name_out_of_bounds {event : IoEvent} {n' : Negotiation}
    (sound : Sound SOCKS5_CONN_REP_LEN n) (io : Io memory n event n') (long : ¬ShortName n event)
    : ¬InBounds n' := by
  obtain ⟨data, next⟩ := n
  simp only [ShortName, Classical.not_imp, Classical.not_forall, Nat.not_lt] at long
  obtain ⟨reading, byte, single, long⟩ := long
  cases reading
  obtain ⟨⟨can, rfl⟩, event⟩ := And.intro io (event_of_single single)
  subst event
  obtain ⟨_, fits⟩ := can
  obtain ⟨bounded, sized, _, start, one, _⟩ := sound
  obtain ⟨data', kept⟩ := store_isSome bounded fits
  have stored := store_stored kept
  intro inside
  simp only [Negotiation.ends, kept, ReadCallback.run, InBounds,
    ConnectAsyncData.connectReplyAddrLenReadCb, ConnectAsyncData.refill,
    ConnectAsyncData.doRead] at inside
  have within := inside.length
  dsimp only at within start sized
  rw [stored.size, sized, stored.buffer, start, SOCKS5_CONN_REP_LEN] at within
  simp [byteAt] at within
  omega

/-- The client's reads and writes are in bounds as long as the proxy names hosts of at most 253
bytes, and out of bounds after any other; the server's are, except for its first read.
-/
theorem reads_and_writes_in_bounds (memory : Uninitialised)
    : (∀ hostname n, ClientRun memory hostname ShortName n → InBounds n)
      ∧ (∀ hostname n event n', ClientRun memory hostname ShortName n → Io memory n event n' →
          ¬ShortName n event → ¬InBounds n')
      ∧ ∀ allowed address n, ServerRun memory allowed address (fun _ _ => True) n →
          (InBounds n ↔ n.next ≠ .reading .negoMsg ∧ n.next ≠ .undefined .outOfBounds) := by
  refine ⟨fun hostname n run => ?_, fun hostname n event n' run io long => ?_,
    fun allowed address n run => (sound_server run).inBounds_iff⟩
  · have sound := sound_client run
    refine sound.inBounds_iff.mpr ⟨?_, ?_⟩
    · intro greeting
      obtain ⟨data, next⟩ := n
      cases greeting
      exact absurd sound.1 (by decide)
    · intro overflow
      obtain ⟨data, next⟩ := n
      cases overflow
      exact absurd (sound rfl) (by decide)
  · exact long_name_out_of_bounds (sound_client run) io long

/-- The events in order, while each is allowed and can happen. -/
def play (memory : Uninitialised) (allowed : Negotiation → IoEvent → Prop)
    [∀ n event, Decidable (allowed n event)]
    : Negotiation → List IoEvent → Option Negotiation
  | n, [] => some n
  | n, event :: rest =>
      if allowed n event ∧ n.CanEnd event then
        play memory allowed (n.ends memory event) rest
      else
        none

theorem play_reaches {init : Negotiation → Prop} {allowed : Negotiation → IoEvent → Prop}
    [∀ n event, Decidable (allowed n event)] {n' : Negotiation} {events : List IoEvent}
    (run : Reach init (Io memory) allowed n) (ends : play memory allowed n events = some n')
    : Reach init (Io memory) allowed n' := by
  induction events generalizing n with
  | nil =>
      cases ends
      exact run
  | cons event rest ih =>
      simp only [play] at ends
      split at ends
      · rename_i ready
        exact ih (.step run ready.1 ⟨ready.2, rfl⟩) ends
      · cases ends

/-- The host "a". -/
def hostA : CString where
  bytes := [97]
  nulFree := by decide

/-- A proxy takes the greeting and the request, and names a host of `length` bytes. -/
def namedBy (length : UInt8) : List IoEvent :=
  [.wrote 3, .read [5, 0], .wrote 8, .read [5, 0], .read [0, 3], .read [length]]

theorem reads_and_writes_in_bounds_hostA
    : ∃ n, ClientRun .null hostA ShortName n ∧ n.next = .reading .connectAddr
        ∧ n.data.length = 255 ∧ InBounds n := by
  have passed : (play .null ShortName (socks5ClientNego hostA) (namedBy 253)).any (fun n =>
      decide (n.next = .reading .connectAddr ∧ n.data.length = 255)) = true := by decide +kernel
  obtain ⟨n, ends, named⟩ := (Option.any_eq_true _ _).mp passed
  have run : ClientRun .null hostA ShortName n := play_reaches (.start rfl) ends
  obtain ⟨waits, long⟩ := of_decide_eq_true named
  exact ⟨n, run, waits, long, (reads_and_writes_in_bounds .null).1 hostA n run⟩

/-- A server at the address 0.0.0.0. -/
def anyAddress : GInetSocketAddress where
  address := .ipv4 (Vector.replicate 4 0)
  port := 0

theorem first_read_overruns
    : ¬((∀ memory hostname n, ClientRun memory hostname (fun _ _ => True) n → InBounds n)
        ∧ ∀ memory allowed address n,
          ServerRun memory allowed address (fun _ _ => True) n → InBounds n) := by
  intro claimed
  have inside := claimed.2 .null hostA anyAddress _ (.start rfl)
  exact absurd inside (by decide)

end McabberJingle.Socks5
