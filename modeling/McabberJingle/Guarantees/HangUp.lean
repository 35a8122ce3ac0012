import McabberJingle.Guarantees.Buffers
import McabberJingle.Socks5.Streams

/-! What a SOCKS5 negotiation does when the other side hangs up. No read callback looks for the end
of the stream, so every one that waits for bytes waits forever.
-/

namespace McabberJingle.Socks5

open Program

variable {memory : Uninitialised} {n : Negotiation} {data : ConnectAsyncData}

-----------------------------------------------------------------------------------------
-- After the end of the stream
-----------------------------------------------------------------------------------------

/-- Reads and writes after the other side has hung up: every read is empty, and a write fails or
writes something if there is something to write.
-/
def AfterHangUp (n : Negotiation) : IoEvent → Prop
  | .read bytes => bytes = []
  | .wrote count => 0 < count ∨ n.wanted = 0
  | .failed => n.next.isWriting = true

/-- A read or a write was issued and has not ended. -/
def Negotiation.Pending (n : Negotiation) : Prop :=
  n.next.isReading = true ∨ n.next.isWriting = true

instance (n : Negotiation) : Decidable n.Pending := inferInstanceAs (Decidable (_ ∨ _))

theorem Negotiation.Pending.waits (pending : n.Pending)
    : (∃ callback, n.next = .reading callback) ∨ ∃ callback, n.next = .writing callback := by
  rw [Negotiation.Pending] at pending
  cases next : n.next with
  | reading callback => exact .inl ⟨callback, rfl⟩
  | writing callback => exact .inr ⟨callback, rfl⟩
  | completed completion =>
      rw [next] at pending
      rcases pending with reading | writing <;> contradiction
  | undefined what =>
      rw [next] at pending
      rcases pending with reading | writing <;> contradiction

/-- However reads and writes end from now on, an error comes after finitely many callbacks. -/
inductive EndsInError (memory : Uninitialised) : Negotiation → Prop where
  | completed {n : Negotiation} {completion : Completion}
    (finished : n.next = .completed completion) (error : completion ≠ .success)
    : EndsInError memory n
  | pending {n : Negotiation} (waits : n.Pending)
    (later : ∀ event n', AfterHangUp n event → Io memory n event n' → EndsInError memory n')
    : EndsInError memory n

/-- The same is done next, as far as the other side can tell. -/
structure SameCourse (n n' : Negotiation) : Prop where
  next : n'.next = n.next
  length : n'.data.length = n.data.length
  offset : n'.data.offset = n.data.offset

/-- Another content of the buffer. -/
def Negotiation.withBuffer (n : Negotiation) (buffer : List UInt8) : Negotiation :=
  { n with data := { n.data with buffer } }

/-- What is done next does not depend on the bytes behind those that were received. -/
def Unaffected (memory : Uninitialised) (n : Negotiation) (event : IoEvent) : Prop :=
  ∀ buffer : List UInt8, buffer.length = n.data.buffer.length →
    buffer.take n.data.offset = n.data.buffer.take n.data.offset →
    SameCourse (n.ends memory event) ((n.withBuffer buffer).ends memory event)

/-- Bytes that were not received are never interpreted. -/
def OnlyReceived (memory : Uninitialised) (n : Negotiation) : Prop :=
  ∀ n', Reach (fun start => start = n) (Io memory) AfterHangUp n' →
    ∀ event, n'.CanEnd event → AfterHangUp n' event → Unaffected memory n' event

/-- What should happen when the other side hangs up. -/
structure EndsOnHangUp (memory : Uninitialised) (n : Negotiation) : Prop where
  ends : EndsInError memory n
  received : OnlyReceived memory n

-----------------------------------------------------------------------------------------
-- Something is always missing
-----------------------------------------------------------------------------------------

/-- The condition under which `nego_msg_read_cb` parses the greeting. -/
def GreetingWhole (data : ConnectAsyncData) : Prop :=
  (data.offset ≥ 2 ∧ data.offset - 2 > (byteAt data.buffer 2).toNat)
    ∨ data.offset = data.length

/-- The callbacks that take the length of a host name from the buffer. -/
def ReadCallback.IsLength (callback : ReadCallback) : Prop :=
  callback = .connectAddrLen ∨ callback = .connectReplyAddrLen

/-- While a read is pending, its callback still misses bytes. -/
def Unfilled (n : Negotiation) : Prop :=
  match n.next with
  | .reading .negoMsg => n.data.offset ≤ n.data.buffer.length ∧ ¬GreetingWhole n.data
  | .reading .connectAddrLen => n.data.offset = 0 ∧ 0 < n.data.buffer.length
  | .reading .connectReplyAddrLen => n.data.offset = 0 ∧ 0 < n.data.buffer.length
  | .reading _ => n.data.offset < n.data.length ∧ n.data.offset ≤ n.data.buffer.length
  | .writing _ => n.data.offset ≤ n.data.length
  | .completed _ => True
  | .undefined _ => True

section Callbacks

variable {count : Nat}

theorem unfilled_build (size : Nat) (msg : List UInt8) (callback : WriteCallback)
    : Unfilled (data.build size msg callback) := by
  unfold ConnectAsyncData.build
  split
  · trivial
  · exact Nat.zero_le _

theorem unfilled_written {again : WriteCallback} {done : ConnectAsyncData → Negotiation}
    (below : data.offset ≤ data.length) (fits : count ≤ data.length - data.offset)
    (finish : ∀ data', Unfilled (done data'))
    : Unfilled (data.written again done count) := by
  unfold ConnectAsyncData.written
  dsimp only
  split
  · exact finish _
  · change data.offset + count ≤ data.length
    omega

/-- Where the bytes of a read end, the callback is done or more is missing. -/
structure Filling (data : ConnectAsyncData) (count : Nat) : Prop where
  missing : data.offset < data.length
  fits : count ≤ data.length - data.offset
  inside : data.offset + count ≤ data.buffer.length

theorem Filling.more (filling : Filling data count)
    (other : data.offset + count ≠ data.length)
    : data.offset + count < data.length ∧ data.offset + count ≤ data.buffer.length := by
  obtain ⟨missing, fits, inside⟩ := filling
  omega

theorem unfilled_doRead {callback : ReadCallback} (counts : callback.counts = true)
    (below : data.offset < data.length) (inside : data.offset ≤ data.buffer.length)
    : Unfilled (data.doRead callback) := by
  cases callback with
  | negoMsg => cases counts
  | connectAddrLen => cases counts
  | connectReplyAddrLen => cases counts
  | _ => exact ⟨below, inside⟩

theorem unfilled_filled {again : ReadCallback} {done : ConnectAsyncData → Negotiation}
    (filling : Filling data count) (counts : again.counts = true)
    (finish : ∀ data' : ConnectAsyncData, 0 < data'.buffer.length → Unfilled (done data'))
    : Unfilled (data.filled again done count) := by
  unfold ConnectAsyncData.filled
  dsimp only
  split
  · obtain ⟨missing, fits, inside⟩ := filling
    refine finish _ ?_
    dsimp only
    omega
  · rename_i other
    obtain ⟨below, inside⟩ := filling.more other
    exact unfilled_doRead counts below inside

theorem unfilled_sendConnectMsg : Unfilled data.sendConnectMsg := by
  unfold ConnectAsyncData.sendConnectMsg
  split
  · trivial
  · exact unfilled_build _ _ _

theorem unfilled_onNegoMsg (inside : data.offset ≤ data.buffer.length)
    : Unfilled (data.onNegoMsg memory) := by
  unfold ConnectAsyncData.onNegoMsg
  split
  · split
    · exact unfilled_build _ _ _
    · split
      · trivial
      · split
        · exact unfilled_build _ _ _
        · trivial
  · rename_i missing
    exact ⟨inside, missing⟩

theorem unfilled_onNegoReply : Unfilled (data.onNegoReply memory) := by
  unfold ConnectAsyncData.onNegoReply
  split
  · cases memory <;> trivial
  · exact unfilled_build _ _ _
  · exact unfilled_sendConnectMsg

theorem unfilled_onAuthReply : Unfilled data.onAuthReply := by
  unfold ConnectAsyncData.onAuthReply
  split
  · trivial
  · exact unfilled_sendConnectMsg

theorem unfilled_onConnectMsg (nonempty : 0 < data.buffer.length)
    : Unfilled data.onConnectMsg := by
  unfold ConnectAsyncData.onConnectMsg
  split
  · trivial
  · split
    · exact ⟨rfl, nonempty⟩
    · trivial

theorem unfilled_onConnectAddr : Unfilled data.onConnectAddr := by
  unfold ConnectAsyncData.onConnectAddr
  split
  · split
    · trivial
    · exact unfilled_build _ _ _
  · trivial

theorem unfilled_onConnectReply (nonempty : 0 < data.buffer.length)
    : Unfilled data.onConnectReply := by
  unfold ConnectAsyncData.onConnectReply
  split
  · trivial
  · split
    · exact ⟨Nat.succ_pos _, Nat.zero_le _⟩
    · split
      · exact ⟨Nat.succ_pos _, Nat.zero_le _⟩
      · exact ⟨rfl, nonempty⟩

/-- A message that was read asks for more bytes, or for none. -/
theorem unfilled_read_done (callback : ReadCallback) (nonempty : 0 < data.buffer.length)
    : Unfilled (callback.done memory data) := by
  cases callback with
  | negoReply => exact unfilled_onNegoReply
  | authReply => exact unfilled_onAuthReply
  | connectMsg => exact unfilled_onConnectMsg nonempty
  | connectAddr => exact unfilled_onConnectAddr
  | connectReply => exact unfilled_onConnectReply nonempty
  | _ => trivial

theorem unfilled_write_done (callback : WriteCallback) (data : ConnectAsyncData)
    : Unfilled (callback.done data) := by
  cases callback with
  | noSupportedMethod => trivial
  | connectReply => trivial
  | _ => exact ⟨Nat.succ_pos _, Nat.zero_le _⟩

/-- The address is read once its length is known. -/
theorem unfilled_refill_connectAddr (length : Nat)
    : Unfilled (data.refill (length + 2) .connectAddr) :=
  ⟨Nat.succ_pos _, Nat.zero_le _⟩

theorem unfilled_received {callback : ReadCallback} {bytes : List UInt8}
    {data' : ConnectAsyncData} (unfilled : Unfilled { data, next := .reading callback })
    (stored : Stored data bytes data') (fits : bytes.length ≤ data.length - data.offset)
    (inside : data.offset + bytes.length ≤ data.buffer.length)
    : Unfilled (callback.run memory data' bytes.length) := by
  have filling (missing : data.offset < data.length) : Filling data' bytes.length := by
    refine ⟨?_, ?_, ?_⟩
    · rw [stored.offset, stored.length]
      exact missing
    · rw [stored.offset, stored.length]
      exact fits
    · rw [stored.offset, stored.size]
      exact inside
  cases callback with
  | negoMsg =>
      refine unfilled_onNegoMsg ?_
      dsimp only
      rw [stored.offset, stored.size]
      exact inside
  | connectAddrLen => exact unfilled_refill_connectAddr _
  | connectReplyAddrLen => exact unfilled_refill_connectAddr _
  | _ =>
      rw [ReadCallback.run_eq rfl]
      exact unfilled_filled (filling unfilled.1) rfl (fun _ => unfilled_read_done _)

end Callbacks

/-- Every end of a read or a write. -/
theorem Unfilled.ends {event : IoEvent} (unfilled : Unfilled n) (can : n.CanEnd event)
    : Unfilled (n.ends memory event) := by
  cases can.ending with
  | wrote callback count fits =>
      simp only [Negotiation.ends, WriteCallback.run_eq]
      exact unfilled_written unfilled fits (unfilled_write_done callback)
  | @read data callback bytes fits =>
      simp only [Negotiation.ends]
      cases kept : data.store bytes with
      | none => trivial
      | some data' =>
          refine unfilled_received unfilled (store_stored kept) fits ?_
          unfold ConnectAsyncData.store at kept
          split at kept
          · rename_i inside
            exact inside
          · cases kept
  | failedWrite callback => trivial
  | failedRead callback => trivial

theorem unfilled_client {hostname : CString} {allowed : Negotiation → IoEvent → Prop}
    (run : ClientRun memory hostname allowed n)
    : Unfilled n := by
  refine run.invariant ?_ ?_
  · rintro n rfl
    exact unfilled_build _ _ _
  · rintro n event _ unfilled _ ⟨can, rfl⟩
    exact unfilled.ends can

theorem unfilled_server {allowedHostname : CString} {externalAddress : GInetSocketAddress}
    {allowed : Negotiation → IoEvent → Prop}
    (run : ServerRun memory allowedHostname externalAddress allowed n)
    : Unfilled n := by
  refine run.invariant ?_ ?_
  · rintro n rfl
    refine ⟨Nat.zero_le _, ?_⟩
    rintro (⟨two, _⟩ | whole)
    · cases two
    · cases whole
  · rintro n event _ unfilled _ ⟨can, rfl⟩
    exact unfilled.ends can

-----------------------------------------------------------------------------------------
-- Empty reads
-----------------------------------------------------------------------------------------

theorem store_nil (inside : data.offset ≤ data.buffer.length) : data.store [] = some data := by
  simp [ConnectAsyncData.store, inside]

theorem Unfilled.inside {callback : ReadCallback}
    (unfilled : Unfilled { data, next := .reading callback })
    : data.offset ≤ data.buffer.length := by
  cases callback with
  | negoMsg => exact unfilled.1
  | connectAddrLen => exact unfilled.1.symm ▸ Nat.zero_le _
  | connectReplyAddrLen => exact unfilled.1.symm ▸ Nat.zero_le _
  | _ => exact unfilled.2

theorem filled_none {again : ReadCallback} {done : ConnectAsyncData → Negotiation}
    (missing : data.offset < data.length)
    : data.filled again done 0 = data.doRead again := by
  rw [ConnectAsyncData.filled]
  exact if_neg (Nat.ne_of_lt missing)

/-- An empty read is repeated, unless it was to bring a length. -/
theorem Unfilled.empty_read {callback : ReadCallback}
    (unfilled : Unfilled { data, next := .reading callback }) (other : ¬callback.IsLength)
    : Negotiation.ends memory { data, next := .reading callback } (.read [])
      = { data, next := .reading callback.again } := by
  simp only [Negotiation.ends, store_nil unfilled.inside, List.length_nil]
  cases callback with
  | negoMsg => exact if_neg unfilled.2
  | connectAddrLen => exact absurd (.inl rfl) other
  | connectReplyAddrLen => exact absurd (.inr rfl) other
  | _ => exact filled_none unfilled.1

/-- The length is taken from the buffer all the same. -/
theorem Unfilled.empty_length {callback : ReadCallback}
    (unfilled : Unfilled { data, next := .reading callback }) (isLength : callback.IsLength)
    : Negotiation.ends memory { data, next := .reading callback } (.read [])
      = data.refill ((byteAt data.buffer 0).toNat + 2) .connectAddr := by
  simp only [Negotiation.ends, store_nil unfilled.inside, List.length_nil]
  rcases isLength with rfl | rfl
  · rfl
  · rfl

/-- After an empty read, the next read is pending. -/
theorem Unfilled.keeps_reading {callback : ReadCallback} (unfilled : Unfilled n)
    (reading : n.next = .reading callback)
    : ∃ callback', (n.ends memory (.read [])).next = .reading callback' := by
  obtain ⟨data, next⟩ := n
  cases reading
  by_cases isLength : callback.IsLength
  · exact ⟨_, congrArg Negotiation.next (unfilled.empty_length isLength)⟩
  · exact ⟨_, congrArg Negotiation.next (unfilled.empty_read isLength)⟩

-----------------------------------------------------------------------------------------
-- What ends, and what does not
-----------------------------------------------------------------------------------------

theorem canEnd_empty_read {callback : ReadCallback} (reading : n.next = .reading callback)
    : n.CanEnd (.read []) := by
  refine ⟨?_, Nat.zero_le _⟩
  rw [reading]
  rfl

/-- A negotiation that waits for bytes does not end any more. -/
theorem Unfilled.never_ends {callback : ReadCallback} (unfilled : Unfilled n)
    (reading : n.next = .reading callback)
    : ¬EndsInError memory n := by
  intro ends
  induction ends generalizing callback with
  | completed finished error =>
      rw [reading] at finished
      cases finished
  | pending waits later ih =>
      have can := canEnd_empty_read reading
      obtain ⟨callback', still⟩ := unfilled.keeps_reading reading
      exact ih (.read []) _ rfl ⟨can, rfl⟩ (unfilled.ends can) still

theorem success_never_ends (finished : n.next = .completed .success) : ¬EndsInError memory n := by
  intro ends
  cases ends with
  | completed same error =>
      rw [finished] at same
      cases same
      exact error rfl
  | pending pending later =>
      rcases pending.waits with ⟨callback, reading⟩ | ⟨callback, writing⟩
      · cases finished.symm.trans reading
      · cases finished.symm.trans writing

/-- Except for the refusal of a server, a message that was written waits for its answer or is the
last one.
-/
theorem write_done {callback : WriteCallback} (other : callback ≠ .noSupportedMethod)
    (data : ConnectAsyncData)
    : (∃ waits, (callback.done data).next = .reading waits)
      ∨ (callback.done data).next = .completed .success := by
  cases callback with
  | noSupportedMethod => exact absurd rfl other
  | connectReply => exact .inr rfl
  | _ => exact .inl ⟨_, rfl⟩

/-- Everything that is left is written. -/
theorem ends_wrote_all {callback : WriteCallback} (below : data.offset ≤ data.length)
    : Negotiation.ends memory { data, next := .writing callback }
        (.wrote (data.length - data.offset))
      = callback.done { data with offset := data.length } := by
  have whole : data.offset + (data.length - data.offset) = data.length := by omega
  simp only [Negotiation.ends, WriteCallback.run_eq, ConnectAsyncData.written, whole, if_true]

theorem Unfilled.never_ends_writing {callback : WriteCallback} (unfilled : Unfilled n)
    (writing : n.next = .writing callback) (other : callback ≠ .noSupportedMethod)
    : ¬EndsInError memory n := by
  obtain ⟨data, next⟩ := n
  cases writing
  intro ends
  cases ends with
  | completed finished error => cases finished
  | pending waits later =>
      have can : Negotiation.CanEnd { data, next := .writing callback }
          (.wrote (data.length - data.offset)) := ⟨rfl, Nat.le_refl _⟩
      have all : AfterHangUp { data, next := .writing callback }
          (.wrote (data.length - data.offset)) := (Nat.eq_zero_or_pos _).symm
      have rest := later _ _ all ⟨can, rfl⟩
      have unfilled' : Unfilled (Negotiation.ends memory { data, next := .writing callback }
          (.wrote (data.length - data.offset))) := unfilled.ends can
      rw [ends_wrote_all unfilled] at rest unfilled'
      rcases write_done other { data with offset := data.length } with ⟨waits, reading⟩ | success
      · exact unfilled'.never_ends reading rest
      · exact success_never_ends success rest

/-- The refusal of a server is written or fails: by induction on what is left to write. -/
theorem refusing_ends (left : Nat) {data : ConnectAsyncData} (below : data.offset ≤ data.length)
    (size : data.length - data.offset = left)
    : EndsInError memory { data, next := .writing .noSupportedMethod } := by
  induction left using Nat.strongRecOn generalizing data with
  | ind left ih =>
      refine .pending (.inr rfl) ?_
      rintro event n' after ⟨can, rfl⟩
      cases event with
      | read bytes => cases can.1
      | failed => exact .completed rfl (by decide)
      | wrote count =>
          obtain ⟨_, fits⟩ := can
          change count ≤ data.length - data.offset at fits
          by_cases whole : data.offset + count = data.length
          · have finished : Negotiation.ends memory { data, next := .writing .noSupportedMethod }
                (.wrote count)
                = ConnectAsyncData.completeAsyncFromError (.s5b .authFailed
                    "The client did not offer any authentication method we support.")
                  { data with offset := data.offset + count } :=
              if_pos whole
            rw [finished]
            exact .completed rfl (by simp)
          · have more : Negotiation.ends memory { data, next := .writing .noSupportedMethod }
                (.wrote count)
                = { data := { data with offset := data.offset + count }
                    next := .writing .noSupportedMethod } :=
              if_neg whole
            have some : 0 < count := by
              rcases after with positive | nothing
              · exact positive
              · change data.length - data.offset = 0 at nothing
                omega
            rw [more]
            refine ih (data.length - (data.offset + count)) ?_ ?_ rfl
            · omega
            · dsimp only
              omega

-----------------------------------------------------------------------------------------
-- Bytes that were not received
-----------------------------------------------------------------------------------------

theorem byteAt_take {data : List UInt8} {i k : Nat} (below : i < k)
    : byteAt (data.take k) i = byteAt data i := by
  simp [byteAt, List.getElem?_take_of_lt below]

/-- Of the greeting, the third byte is only compared when it cannot decide or was received. -/
theorem greetingWhole_iff {buffer : List UInt8}
    (same : buffer.take data.offset = data.buffer.take data.offset)
    : GreetingWhole { data with buffer } ↔ GreetingWhole data := by
  have compared : (data.offset ≥ 2 ∧ data.offset - 2 > (byteAt buffer 2).toNat)
      ↔ (data.offset ≥ 2 ∧ data.offset - 2 > (byteAt data.buffer 2).toNat) := by
    by_cases received : 2 < data.offset
    · rw [← byteAt_take received, same, byteAt_take received]
    · omega
  exact or_congr_left compared

theorem Unfilled.withBuffer {callback : ReadCallback} {buffer : List UInt8}
    (unfilled : Unfilled { data, next := .reading callback }) (other : ¬callback.IsLength)
    (size : buffer.length = data.buffer.length)
    (same : buffer.take data.offset = data.buffer.take data.offset)
    : Unfilled { data := { data with buffer }, next := .reading callback } := by
  cases callback with
  | negoMsg =>
      refine ⟨?_, fun whole => unfilled.2 ((greetingWhole_iff same).mp whole)⟩
      exact size ▸ unfilled.1
  | connectAddrLen => exact absurd (.inl rfl) other
  | connectReplyAddrLen => exact absurd (.inr rfl) other
  | _ => exact ⟨unfilled.1, size ▸ unfilled.2⟩

theorem sameCourse_written {again : WriteCallback} {done : ConnectAsyncData → Negotiation}
    (finish : ∀ (data : ConnectAsyncData) (buffer : List UInt8),
      SameCourse (done data) (done { data with buffer }))
    (buffer : List UInt8) (count : Nat)
    : SameCourse (data.written again done count)
        (({ data with buffer } : ConnectAsyncData).written again done count) := by
  unfold ConnectAsyncData.written
  dsimp only
  split
  · exact finish { data with offset := data.offset + count } buffer
  · exact ⟨rfl, rfl, rfl⟩

theorem sameCourse_wrote (callback : WriteCallback) (buffer : List UInt8) (count : Nat)
    : SameCourse (callback.run data count) (callback.run { data with buffer } count) := by
  cases callback <;> exact sameCourse_written (fun _ _ => ⟨rfl, rfl, rfl⟩) buffer count

/-- No length of a host name is being read. -/
def NoLength (n : Negotiation) : Prop :=
  ∀ callback, n.next = .reading callback → ¬callback.IsLength

theorem unaffected {event : IoEvent} (unfilled : Unfilled n) (other : NoLength n)
    (can : n.CanEnd event) (after : AfterHangUp n event)
    : Unaffected memory n event := by
  intro buffer size same
  cases can.ending with
  | wrote callback count => exact sameCourse_wrote callback buffer count
  | read callback bytes =>
      cases after
      have there := unfilled.withBuffer (other callback rfl) size same
      rw [unfilled.empty_read (other callback rfl)]
      rw [Negotiation.withBuffer, there.empty_read (other callback rfl)]
      exact ⟨rfl, rfl, rfl⟩
  | failedWrite callback => exact ⟨rfl, rfl, rfl⟩
  | failedRead callback => cases after

theorem noLength_doRead {callback : ReadCallback} (other : ¬callback.IsLength)
    : NoLength (data.doRead callback) := by
  rintro _ same
  cases same
  exact other

theorem noLength_write_done (callback : WriteCallback) (data : ConnectAsyncData)
    : NoLength (callback.done data) := by
  rintro waits same
  cases callback <;> cases same <;> simp [ReadCallback.IsLength]

/-- A host name's length is only asked for after bytes were received. -/
theorem NoLength.ends {event : IoEvent} (noLength : NoLength n) (unfilled : Unfilled n)
    (can : n.CanEnd event) (after : AfterHangUp n event)
    : NoLength (n.ends memory event) := by
  cases can.ending with
  | wrote callback count =>
      simp only [Negotiation.ends, WriteCallback.run_eq, ConnectAsyncData.written]
      split
      · exact noLength_write_done callback _
      · rintro _ same
        cases same
  | read callback bytes =>
      cases after
      rw [unfilled.empty_read (noLength callback rfl)]
      refine noLength_doRead ?_
      cases callback with
      | connectAddrLen => exact noLength _ rfl
      | connectReplyAddrLen => exact noLength _ rfl
      | _ => simp [ReadCallback.IsLength, ReadCallback.again]
  | failedWrite callback =>
      rintro _ same
      cases same
  | failedRead callback => cases after

/-- The length is taken from whatever the first byte of the buffer is. -/
theorem affected_length {callback : ReadCallback} (unfilled : Unfilled n)
    (reading : n.next = .reading callback) (isLength : callback.IsLength)
    : ¬Unaffected memory n (.read []) := by
  obtain ⟨data, next⟩ := n
  cases reading
  have start : data.offset = 0 ∧ 0 < data.buffer.length := by
    rcases isLength with rfl | rfl
    · exact unfilled
    · exact unfilled
  have size : (data.buffer.set 0 (byteAt data.buffer 0 + 1)).length = data.buffer.length := by simp
  have same : (data.buffer.set 0 (byteAt data.buffer 0 + 1)).take data.offset
      = data.buffer.take data.offset := by
    rw [start.1]
    rfl
  have there : Unfilled ({ data, next := .reading callback : Negotiation }.withBuffer
      (data.buffer.set 0 (byteAt data.buffer 0 + 1))) := by
    rcases isLength with rfl | rfl
    · exact ⟨start.1, size ▸ start.2⟩
    · exact ⟨start.1, size ▸ start.2⟩
  intro unaffected
  have lengths := (unaffected _ size same).length
  rw [Negotiation.withBuffer] at there lengths
  rw [unfilled.empty_length isLength, there.empty_length isLength] at lengths
  have first : byteAt (data.buffer.set 0 (byteAt data.buffer 0 + 1)) 0
      = byteAt data.buffer 0 + 1 := by
    simp [byteAt, start.2]
  have equal : (byteAt data.buffer 0 + 1).toNat = (byteAt data.buffer 0).toNat := by
    simpa [ConnectAsyncData.refill, ConnectAsyncData.doRead, first] using lengths
  have next : byteAt data.buffer 0 + 1 = byteAt data.buffer 0 := UInt8.toNat_inj.mp equal
  simp at next

theorem onlyReceived_iff (unfilled : Unfilled n) : OnlyReceived memory n ↔ NoLength n := by
  constructor
  · intro received callback reading isLength
    have can := canEnd_empty_read reading
    exact affected_length unfilled reading isLength (received n (.start rfl) _ can rfl)
  · intro noLength n' reached
    have both : Unfilled n' ∧ NoLength n' := by
      induction reached with
      | start same => exact same ▸ ⟨unfilled, noLength⟩
      | step run after next ih =>
          obtain ⟨can, rfl⟩ := next
          exact ⟨ih.1.ends can, ih.2.ends ih.1 can after⟩
    exact fun event can after => unaffected both.1 both.2 can after

-----------------------------------------------------------------------------------------
-- Hanging up
-----------------------------------------------------------------------------------------

/-- Only a server that refuses its client ends. -/
theorem endsInError_iff (unfilled : Unfilled n) (pending : n.Pending)
    : EndsInError memory n ↔ n.next = .writing .noSupportedMethod := by
  constructor
  · intro ends
    rcases pending.waits with ⟨callback, reading⟩ | ⟨callback, writing⟩
    · exact absurd ends (unfilled.never_ends reading)
    · by_cases refusing : callback = .noSupportedMethod
      · rw [writing, refusing]
      · exact absurd ends (unfilled.never_ends_writing writing refusing)
  · intro refusing
    obtain ⟨data, next⟩ := n
    cases refusing
    exact refusing_ends _ unfilled rfl

/-- A negotiation of our client or our server, after any reads and writes. -/
def Negotiates (memory : Uninitialised) (n : Negotiation) : Prop :=
  (∃ hostname, ClientRun memory hostname (fun _ _ => True) n)
    ∨ ∃ allowed address, ServerRun memory allowed address (fun _ _ => True) n

theorem Negotiates.unfilled (negotiates : Negotiates memory n) : Unfilled n := by
  rcases negotiates with ⟨hostname, run⟩ | ⟨allowed, address, run⟩
  · exact unfilled_client run
  · exact unfilled_server run

/-- When the other side hangs up, only a server that refuses its client ends with an error. -/
theorem hang_up_ends_negotiation (memory : Uninitialised) (n : Negotiation)
    (negotiates : Negotiates memory n) (pending : n.Pending)
    : EndsOnHangUp memory n ↔ n.next = .writing .noSupportedMethod := by
  have unfilled := negotiates.unfilled
  constructor
  · intro ends
    exact (endsInError_iff unfilled pending).mp ends.ends
  · intro refusing
    refine ⟨(endsInError_iff unfilled pending).mpr refusing, (onlyReceived_iff unfilled).mpr ?_⟩
    intro callback reading
    rw [refusing] at reading
    cases reading

/-- A server whose client offers a method that it does not support. -/
def refused : Negotiation :=
  (socks5ServerNego hostA anyAddress).ends .null (.read [5, 1, 0])

theorem hang_up_ends_negotiation_refused : EndsOnHangUp .null refused := by
  have run : ServerRun .null hostA anyAddress (fun _ _ => True) refused :=
    .step (.start rfl) trivial ⟨by decide, rfl⟩
  exact (hang_up_ends_negotiation .null refused (.inr ⟨hostA, anyAddress, run⟩)
    (by decide +kernel)).mpr (by decide +kernel)

/-- A client greets the server and sends the header of its request, and no more. -/
def headerOnly : List IoEvent := [.read [5, 3, 0], .wrote 2, .read [5, 1, 0, 3]]

/-- The server takes the 5 that the header starts with for the length of the host name, and then
waits forever.
-/
theorem hang_up_after_header
    : ∃ n, Negotiates .null n ∧ n.Pending
        ∧ (n.ends .null (.read [])).next = .reading .connectAddr
        ∧ (n.ends .null (.read [])).data.length = 5 + 2
        ∧ ¬EndsOnHangUp .null n := by
  have passed : (play .null (fun _ _ => True) (socks5ServerNego hostA anyAddress)
      headerOnly).any (fun n =>
        decide (n.next = .reading .connectAddrLen
          ∧ (n.ends .null (.read [])).next = .reading .connectAddr
          ∧ (n.ends .null (.read [])).data.length = 5 + 2)) = true := by
    decide +kernel
  obtain ⟨n, ends, named⟩ := (Option.any_eq_true _ _).mp passed
  obtain ⟨waits, address, stale⟩ := of_decide_eq_true named
  have run : ServerRun .null hostA anyAddress (fun _ _ => True) n := play_reaches (.start rfl) ends
  refine ⟨n, .inr ⟨hostA, anyAddress, run⟩, ?_, address, stale, fun hangUp => ?_⟩
  · exact .inl (congrArg Next.isReading waits)
  · exact (unfilled_server run).never_ends waits hangUp.ends

end McabberJingle.Socks5
