import McabberJingle.Guarantees.Admission

/-! A reply of our server, read by our client. The server writes the address type twice and a
refusal without its last two bytes, and the client reads the length of a host name as a server
would: no reply is read as it was written.
-/

namespace McabberJingle.Socks5

open Endpoint Relation

variable {memory : Uninitialised} {e e' : Endpoint} {completion : Completion}

-----------------------------------------------------------------------------------------
-- Replies
-----------------------------------------------------------------------------------------

/-- The address that a reply names. -/
inductive BoundAddress where
  | inet (address : GInetAddress)
  | domain (host : CString) (short : host.strlen ≤ SOCKS5_MAX_LEN)

def BoundAddress.atype : BoundAddress → UInt8
  | .inet (.ipv4 _) => SOCKS5_ATYP_IPV4
  | .inet (.ipv6 _) => SOCKS5_ATYP_IPV6
  | .domain _ _ => SOCKS5_ATYP_DOMAINNAME

def BoundAddress.bytes : BoundAddress → List UInt8
  | .inet address => address.toBytes
  | .domain host _ => host.bytes

/-- What the server sends. -/
def replyTo (rep : UInt8) (address : BoundAddress) (port : UInt16) : List UInt8 :=
  serverSetConnectReply rep address.atype address.bytes port

/-- The client has written its request, and `input` comes as the reply. -/
def awaiting (hostname : CString) (output input : List UInt8) : Endpoint where
  negotiation := (clientAt hostname SOCKS5_CONN_REP_LEN 4).doRead .connectReply
  output := output
  input := input

/-- A write or a read ends with some bytes, or a read is empty behind the last byte. -/
inductive Arrival (memory : Uninitialised) (e : Endpoint) : Endpoint → Prop
  | some {e' : Endpoint} (step : Step memory e e') : Arrival memory e e'
  | none (reading : e.negotiation.next.isReading = true) (ended : e.input = [])
    : Arrival memory e (e.read memory 0)

abbrev Arrivals (memory : Uninitialised) : Endpoint → Endpoint → Prop :=
  ReflTransGen (Arrival memory)

/-- Everything was read, with the address and the port last. -/
structure ReadBack (address : BoundAddress) (port : UInt16) (e : Endpoint) : Prop where
  completed : e.negotiation.next = .completed .success
  whole : e.input = []
  field : e.negotiation.data.buffer.take e.negotiation.data.length
    = address.bytes ++ gHtons port

/-- Everything was read, and the client knows that it was refused. -/
structure Rejected (e : Endpoint) : Prop where
  completed : ∃ error, e.negotiation.next = .completed (.error error)
  whole : e.input = []

def Understood (rep : UInt8) (address : BoundAddress) (port : UInt16) (e : Endpoint) : Prop :=
  if rep = SOCKS5_REP_SUCCEEDED then ReadBack address port e else Rejected e

/-- The reply can arrive so that the client understands it. -/
def RoundTrip (memory : Uninitialised) (hostname : CString) (output : List UInt8) (rep : UInt8)
    (address : BoundAddress) (port : UInt16)
    : Prop :=
  ∃ e, Arrivals memory (awaiting hostname output (replyTo rep address port)) e
    ∧ Understood rep address port e

-----------------------------------------------------------------------------------------
-- Reading one field
-----------------------------------------------------------------------------------------

/-- Where nothing is pending, a run stays. -/
theorem arrivals_of_ended (reading : e.negotiation.next.isReading = false)
    (writing : e.negotiation.next.isWriting = false) (run : Arrivals memory e e')
    : e' = e := by
  cases run.cases_head with
  | inl same => exact same.symm
  | inr first =>
      obtain ⟨_, arrival, _⟩ := first
      cases arrival with
      | some step => exact absurd step (over_of_ended reading writing _)
      | none pending =>
          rw [reading] at pending
          cases pending

theorem arrivals_of_completed {completion : Completion}
    (finished : e.negotiation.next = .completed completion) (run : Arrivals memory e e')
    : e' = e :=
  arrivals_of_ended (by rw [finished]; rfl) (by rw [finished]; rfl) run

/-- A run that completes does not stop where a read is pending. -/
theorem Endpoint.Counted.not_completed {callback : ReadCallback} (counted : Counted e callback)
    : e.negotiation.next ≠ .completed completion := by
  rw [counted.reading]
  exact Next.noConfusion

/-- A pending read ends with some of the bytes that are there. -/
theorem Endpoint.Counted.arrival {callback : ReadCallback} {e₁ : Endpoint}
    (counted : Counted e callback) (arrival : Arrival memory e e₁)
    : ∃ count, count ≤ e.negotiation.wanted ∧ count ≤ e.input.length
        ∧ e₁ = e.read memory count := by
  cases arrival with
  | none => exact ⟨0, Nat.zero_le _, Nat.zero_le _, rfl⟩
  | some step =>
      cases step with
      | wrote count isWriting =>
          rw [counted.reading] at isWriting
          cases isWriting
      | read count _ _ fits there => exact ⟨count, fits, there, rfl⟩

/-- What a short read leaves to be read. -/
theorem Endpoint.Counted.left (memory : Uninitialised) {callback : ReadCallback}
    (counted : Counted e callback)
    (room : e.negotiation.data.length ≤ e.negotiation.data.buffer.length) {count : Nat}
    (there : count ≤ e.input.length) (short : count < e.negotiation.wanted)
    : Counted (e.read memory count) callback.again
      ∧ (e.read memory count).negotiation.wanted = e.negotiation.wanted - count
      ∧ (e.read memory count).negotiation.data.length
        ≤ (e.read memory count).negotiation.data.buffer.length := by
  have inside : e.negotiation.data.offset + count ≤ e.negotiation.data.buffer.length := by
    have begun := counted.offset
    simp only [Negotiation.wanted] at short
    omega
  obtain ⟨counted', data, offset⟩ := counted.short memory there short inside
  have length : (e.read memory count).negotiation.data.length = e.negotiation.data.length := by
    rw [data]
    rfl
  refine ⟨counted', ?_, ?_⟩
  · rw [Negotiation.wanted, length, offset, Nat.sub_add_eq, Negotiation.wanted]
  · rw [length, data, ConnectAsyncData.length_received]
    · exact room
    · rw [List.length_take_of_le there]
      exact inside

/-- By induction on the run: one that completes reads all that is asked for, if short reads keep
the callback.
-/
theorem arrivals_fill {callback : ReadCallback} (counted : Counted e callback)
    (exact : callback.again = callback)
    (room : e.negotiation.data.length ≤ e.negotiation.data.buffer.length)
    (run : Arrivals memory e e') (finished : e'.negotiation.next = .completed completion)
    : e.negotiation.wanted ≤ e.input.length ∧ Arrivals memory (e.fill memory) e' := by
  induction run using ReflTransGen.head_induction_on with
  | refl => exact absurd finished counted.not_completed
  | @head e₀ e₁ arrival rest ih =>
      obtain ⟨count, fits, there, rfl⟩ := counted.arrival arrival
      by_cases all : count = e₀.negotiation.wanted
      · subst all
        exact ⟨there, rest⟩
      · have short : count < e₀.negotiation.wanted := Nat.lt_of_le_of_ne fits all
        obtain ⟨counted', wanted, room'⟩ := counted.left memory room there short
        obtain ⟨enough, passes⟩ := ih (exact ▸ counted') room'
        have whole : e₀.negotiation.wanted ≤ e₀.input.length := by
          rw [wanted, Endpoint.read, List.length_drop] at enough
          omega
        obtain ⟨_, _, _, same⟩ := counted.fill_read memory exact short whole room
        exact ⟨whole, same ▸ passes⟩

/-- The bytes that a filled read leaves to its callback, and the rest of the input. -/
abbrev filledBy (memory : Uninitialised) (e : Endpoint) (callback : ReadCallback) : Endpoint where
  negotiation := callback.done memory
    (e.negotiation.data.received (e.input.take e.negotiation.wanted))
  output := e.output
  input := e.input.drop e.negotiation.wanted

/-- A run that completes fills the pending read; after a short read, another callback may look at
the same bytes.
-/
theorem arrivals_field {callback : ReadCallback} (counted : Counted e callback)
    (room : e.negotiation.data.length ≤ e.negotiation.data.buffer.length)
    (run : Arrivals memory e e') (finished : e'.negotiation.next = .completed completion)
    : e.negotiation.wanted ≤ e.input.length
      ∧ (Arrivals memory (filledBy memory e callback) e'
        ∨ Arrivals memory (filledBy memory e callback.again) e') := by
  cases run.cases_head with
  | inl same =>
      subst same
      exact absurd finished counted.not_completed
  | inr first =>
      obtain ⟨e₁, arrival, rest⟩ := first
      obtain ⟨count, fits, there, rfl⟩ := counted.arrival arrival
      by_cases all : count = e.negotiation.wanted
      · subst all
        have filled : e.read memory e.negotiation.wanted = filledBy memory e callback :=
          counted.fill_eq there room
        exact ⟨there, .inl (filled ▸ rest)⟩
      · have short : count < e.negotiation.wanted := Nat.lt_of_le_of_ne fits all
        have again : callback.again.again = callback.again := by cases callback <;> rfl
        obtain ⟨counted₁, wanted, room₁⟩ := counted.left memory room there short
        obtain ⟨enough, passes⟩ := arrivals_fill counted₁ again room₁ rest finished
        have whole : e.negotiation.wanted ≤ e.input.length := by
          rw [wanted, Endpoint.read, List.length_drop] at enough
          omega
        -- the read could as well have been issued with the callback of the next one
        let other : Endpoint :=
          { e with negotiation := { e.negotiation with next := .reading callback.again } }
        have counted' : Counted other callback.again :=
          ⟨rfl, ReadCallback.again_counts counted.counts, counted.offset⟩
        have same : other.read memory count = e.read memory count := by
          have inside : e.negotiation.data.offset + count
              ≤ e.negotiation.data.buffer.length := by
            have begun := counted.offset
            simp only [Negotiation.wanted] at short
            omega
          have unfinished : ¬e.negotiation.data.offset + count = e.negotiation.data.length := by
            simp only [Negotiation.wanted] at short
            omega
          rw [counted'.read_eq there inside, counted.read_eq there inside, again,
            if_neg unfinished, if_neg unfinished]
        obtain ⟨_, _, _, filled⟩ := counted'.fill_read memory again short whole room
        rw [← same, filled, counted'.fill_eq whole room] at passes
        exact ⟨whole, .inr passes⟩

-----------------------------------------------------------------------------------------
-- Reading the address
-----------------------------------------------------------------------------------------

/-- What starts with neither the version nor a success is no header of a reply. -/
theorem clientParseConnectReply_refused {buffer : List UInt8}
    (other : byteAt buffer 0 ≠ SOCKS5_VERSION ∨ byteAt buffer 1 ≠ SOCKS5_REP_SUCCEEDED)
    : ∃ error, clientParseConnectReply buffer = .error error := by
  unfold clientParseConnectReply
  by_cases version : byteAt buffer 0 = SOCKS5_VERSION
  · have failure := other.resolve_left (fun different => different version)
    rw [if_neg (fun different => different version), if_neg failure]
    exact ⟨_, rfl⟩
  · rw [if_pos version]
    exact ⟨_, rfl⟩

/-- A client that reads an address succeeds only when the address is no host name and all of it was
read at once.
-/
theorem AtAddress.completes {callback : ReadCallback} {n : Nat}
    (field : AtAddress e callback n) (room : n ≤ SOCKS5_CONN_REP_LEN)
    (other : byteAt e.input 0 ≠ SOCKS5_VERSION ∨ byteAt e.input 1 ≠ SOCKS5_REP_SUCCEEDED)
    (run : Arrivals memory e e') (finished : e'.negotiation.next = .completed .success)
    : callback = .connectReplyAddr ∧ e'.input = e.input.drop n := by
  have fits : e.negotiation.data.length ≤ e.negotiation.data.buffer.length := by
    rw [field.length, field.size]
    exact room
  obtain ⟨enough, passes⟩ := arrivals_field field.counted fits run finished
  rw [field.wanted] at enough
  have long := field.long
  have seen (i : Nat) (below : i < 2)
      : byteAt (e.negotiation.data.received (e.input.take n)).buffer i = byteAt e.input i :=
    byteAt_received field.offset enough (Nat.lt_of_lt_of_le below long)
  rcases passes with atOnce | cut
  · rcases field.address with rfl | rfl
    · have ends : (∃ error, (filledBy memory e .connectAddr).negotiation.next
          = .completed (.error error))
          ∨ ∃ what, (filledBy memory e .connectAddr).negotiation.next = .undefined what := by
        simp only [ReadCallback.done, ConnectAsyncData.onConnectAddr]
        split
        · refine .inr ?_
          rw [show (e.negotiation.data.received _).externalAddress = none from field.client]
          exact ⟨_, rfl⟩
        · exact .inl ⟨_, rfl⟩
      rcases ends with ⟨error, failed⟩ | ⟨what, undefined⟩
      · rw [arrivals_of_completed failed atOnce, failed] at finished
        cases finished
      · have stays := arrivals_of_ended (by rw [undefined]; rfl) (by rw [undefined]; rfl) atOnce
        rw [stays, undefined] at finished
        cases finished
    · rw [arrivals_of_completed rfl atOnce]
      exact ⟨rfl, by rw [filledBy, field.wanted]⟩
  · have header : byteAt (e.negotiation.data.received (e.input.take n)).buffer 0 ≠ SOCKS5_VERSION
        ∨ byteAt (e.negotiation.data.received (e.input.take n)).buffer 1
          ≠ SOCKS5_REP_SUCCEEDED := by
      rw [seen 0 (by decide), seen 1 (by decide)]
      exact other
    obtain ⟨error, refused⟩ := clientParseConnectReply_refused header
    have failed : (filledBy memory e callback.again).negotiation.next
        = .completed (.error error) := by
      rw [field.again, filledBy, field.wanted]
      simp only [ReadCallback.done, ConnectAsyncData.onConnectReply, refused]
      rfl
    rw [arrivals_of_completed failed cut, failed] at finished
    cases finished

/-- A single byte cannot be cut. -/
theorem arrivals_byte (reading : e.negotiation.next.isReading = true)
    (single : e.negotiation.wanted = 1) (there : e.input ≠ []) (run : Arrivals memory e e')
    (finished : e'.negotiation.next = .completed completion)
    : Arrivals memory (e.fill memory) e' := by
  cases run.cases_head with
  | inl same =>
      subst same
      rw [finished] at reading
      cases reading
  | inr first =>
      obtain ⟨next, arrival, rest⟩ := first
      cases arrival with
      | none _ ended => exact absurd ended there
      | some step =>
      cases step with
      | wrote count isWriting =>
          cases is : e.negotiation.next <;>
            simp [is, Next.isReading, Next.isWriting] at reading isWriting
      | read count isReading some fits =>
          have one : count = e.negotiation.wanted := by omega
          subst one
          exact rest

-----------------------------------------------------------------------------------------
-- Reading a reply
-----------------------------------------------------------------------------------------

variable {hostname : CString} {output input : List UInt8}

/-- The header is read first. -/
theorem awaiting_header
    (run : Arrivals memory (awaiting hostname output input) e')
    (finished : e'.negotiation.next = .completed completion)
    : 4 ≤ input.length
      ∧ ∃ data : ConnectAsyncData, data.externalAddress = none
        ∧ data.buffer.length = SOCKS5_CONN_REP_LEN
        ∧ clientParseConnectReply data.buffer = clientParseConnectReply input
        ∧ Arrivals memory
            { negotiation := data.onConnectReply, output, input := input.drop 4 } e' := by
  have counted : Counted (awaiting hostname output input) .connectReply :=
    ⟨rfl, rfl, Nat.succ_pos 3⟩
  have size : (awaiting hostname output input).negotiation.data.buffer.length
      = SOCKS5_CONN_REP_LEN := List.length_replicate
  have room : (awaiting hostname output input).negotiation.data.length
      ≤ (awaiting hostname output input).negotiation.data.buffer.length := by
    rw [size]
    exact (by decide : 4 ≤ SOCKS5_CONN_REP_LEN)
  obtain ⟨enough, passes⟩ := arrivals_fill counted rfl room run finished
  rw [counted.fill_eq enough room] at passes
  have piece : (input.take 4).length = 4 := List.length_take_of_le enough
  refine ⟨enough, (clientAt hostname SOCKS5_CONN_REP_LEN 4).received (input.take 4), rfl, ?_, ?_,
    passes⟩
  · rw [ConnectAsyncData.length_received]
    · exact size
    · rw [piece]
      exact Nat.le_trans (by decide : 0 + 4 ≤ SOCKS5_CONN_REP_LEN) (Nat.le_of_eq size.symm)
  · exact clientParseConnectReply_congr (fun i below => byteAt_received rfl enough below)

/-- The header of a success. -/
theorem clientParseConnectReply_header {atype : UInt8} {tail : List UInt8}
    (known : atype = SOCKS5_ATYP_IPV4 ∨ atype = SOCKS5_ATYP_IPV6
      ∨ atype = SOCKS5_ATYP_DOMAINNAME)
    : clientParseConnectReply (SOCKS5_VERSION :: SOCKS5_REP_SUCCEEDED :: 0 :: atype :: tail)
      = .ok atype := by
  rcases known with rfl | rfl | rfl <;> rfl

/-- The type of an address stands twice before it. -/
theorem replyTo_inet (address : GInetAddress) (port : UInt16)
    : replyTo SOCKS5_REP_SUCCEEDED (.inet address) port
      = SOCKS5_VERSION :: SOCKS5_REP_SUCCEEDED :: 0 :: (BoundAddress.inet address).atype
        :: (BoundAddress.inet address).atype :: (address.toBytes ++ gHtons port) := by
  cases address with
  | ipv4 bytes =>
      have whole : bytes.toList.take 4 = bytes.toList := List.take_of_length_le (by simp)
      change _ :: _ :: _ :: _ :: _ :: (bytes.toList.take 4 ++ gHtons port) = _
      rw [whole]
      rfl
  | ipv6 bytes =>
      have whole : bytes.toList.take 16 = bytes.toList := List.take_of_length_le (by simp)
      change _ :: _ :: _ :: _ :: _ :: (bytes.toList.take 16 ++ gHtons port) = _
      rw [whole]
      rfl

/-- The client asks for the address and the port, but not for the type before them. -/
theorem onConnectReply_inet {data : ConnectAsyncData} {address : GInetAddress}
    (parsed : clientParseConnectReply data.buffer = .ok (BoundAddress.inet address).atype)
    : data.onConnectReply = data.refill (address.toBytes.length + 2) .connectReplyAddr := by
  rw [ConnectAsyncData.onConnectReply, parsed]
  cases address with
  | ipv4 bytes =>
      rw [GInetAddress.toBytes, Vector.length_toList]
      rfl
  | ipv6 bytes =>
      rw [GInetAddress.toBytes, Vector.length_toList]
      rfl

theorem toBytes_length (address : GInetAddress) : address.toBytes.length ≤ 16 := by
  cases address <;> simp [GInetAddress.toBytes]

/-- An address of fixed length is read one byte too early: the last byte of the port is left. -/
theorem inet_leaves_byte {address : GInetAddress} {port : UInt16}
    (run : Arrivals memory
      (awaiting hostname output (replyTo SOCKS5_REP_SUCCEEDED (.inet address) port)) e')
    (finished : e'.negotiation.next = .completed .success)
    : e'.input.length = 1 := by
  have atype : (BoundAddress.inet address).atype = SOCKS5_ATYP_IPV4
      ∨ (BoundAddress.inet address).atype = SOCKS5_ATYP_IPV6
      ∨ (BoundAddress.inet address).atype = SOCKS5_ATYP_DOMAINNAME := by
    cases address with
    | ipv4 bytes => exact .inl rfl
    | ipv6 bytes => exact .inr (.inl rfl)
  have other : (BoundAddress.inet address).atype ≠ SOCKS5_VERSION := by
    rcases atype with same | same | same <;> rw [same] <;> decide
  obtain ⟨_, data, client, size, parsed, passes⟩ := awaiting_header run finished
  rw [replyTo_inet] at parsed passes
  rw [clientParseConnectReply_header atype] at parsed
  rw [onConnectReply_inet parsed] at passes
  have short := toBytes_length address
  have field : AtAddress ⟨data.refill (address.toBytes.length + 2) .connectReplyAddr, output,
      (BoundAddress.inet address).atype :: (address.toBytes ++ gHtons port)⟩ .connectReplyAddr
      (address.toBytes.length + 2) :=
    ⟨rfl, .inr rfl, client, rfl, rfl, Nat.le_add_left _ _, size⟩
  have room : address.toBytes.length + 2 ≤ SOCKS5_CONN_REP_LEN :=
    Nat.le_trans (Nat.add_le_add_right short 2) (by decide)
  obtain ⟨_, left⟩ := field.completes room (.inl other) passes finished
  rw [left, List.length_drop, List.length_cons, List.length_append]
  change address.toBytes.length + 2 + 1 - (address.toBytes.length + 2) = 1
  omega

/-- The type before the length of a host name is taken for the length. -/
theorem domain_not_completed {host : CString} {short : host.strlen ≤ SOCKS5_MAX_LEN}
    {port : UInt16}
    (run : Arrivals memory
      (awaiting hostname output (replyTo SOCKS5_REP_SUCCEEDED (.domain host short) port)) e')
    : e'.negotiation.next ≠ .completed .success := by
  intro finished
  have reply : replyTo SOCKS5_REP_SUCCEEDED (.domain host short) port
      = SOCKS5_VERSION :: SOCKS5_REP_SUCCEEDED :: 0 :: SOCKS5_ATYP_DOMAINNAME
        :: SOCKS5_ATYP_DOMAINNAME
        :: UInt8.ofNat host.strlen :: (host.bytes ++ gHtons port) := by
    change _ :: _ :: _ :: _ :: _ :: UInt8.ofNat (host.bytes.takeWhile (· != 0)).length
      :: (host.bytes.takeWhile (· != 0) ++ gHtons port) = _
    rw [takeWhile_nulFree]
    rfl
  obtain ⟨_, data, client, size, parsed, passes⟩ := awaiting_header run finished
  rw [reply] at parsed passes
  rw [clientParseConnectReply_header (.inr (.inr rfl))] at parsed
  have asks : data.onConnectReply = data.refill 1 .connectReplyAddrLen := by
    rw [ConnectAsyncData.onConnectReply, parsed]
    rfl
  rw [asks] at passes
  have nonempty : 0 < data.buffer.length := by
    rw [size]
    decide
  have length := arrivals_byte rfl rfl (List.cons_ne_nil _ _) passes finished
  rw [List.drop_succ_cons, List.drop_succ_cons, List.drop_succ_cons, List.drop_succ_cons,
    List.drop_zero, fill_addrLen (.inr rfl) nonempty] at length
  have field : AtAddress ⟨{ data with
        buffer := SOCKS5_ATYP_DOMAINNAME :: data.buffer.drop 1 }.refill
          (SOCKS5_ATYP_DOMAINNAME.toNat + 2) .connectAddr, output,
      UInt8.ofNat host.strlen :: (host.bytes ++ gHtons port)⟩ .connectAddr
      (SOCKS5_ATYP_DOMAINNAME.toNat + 2) := by
    refine ⟨rfl, .inl rfl, client, rfl, rfl, by decide, ?_⟩
    simp only [ConnectAsyncData.refill, ConnectAsyncData.doRead, List.length_cons,
      List.length_drop, size]
    decide
  -- only the length 5 is taken for the version, and such a host name starts with no NUL
  have other : UInt8.ofNat host.strlen ≠ SOCKS5_VERSION
      ∨ byteAt (host.bytes ++ gHtons port) 0 ≠ SOCKS5_REP_SUCCEEDED := by
    cases bytes : host.bytes with
    | nil =>
        rw [CString.strlen, bytes]
        exact .inl (by decide)
    | cons first rest =>
        refine .inr (fun zero => host.nulFree ?_)
        change first = 0 at zero
        rw [bytes, zero]
        exact List.mem_cons_self
  obtain ⟨is, _⟩ := field.completes (by decide) other length finished
  cases is

/-- A refusal has two bytes, and the client waits for four. -/
theorem refusal_not_completed {rep : UInt8} {address : BoundAddress} {port : UInt16}
    (refused : rep ≠ SOCKS5_REP_SUCCEEDED)
    (run : Arrivals memory (awaiting hostname output (replyTo rep address port)) e')
    : e'.negotiation.next ≠ .completed completion := by
  intro finished
  obtain ⟨enough, _⟩ := awaiting_header run finished
  rw [replyTo, serverSetConnectReply, if_pos refused] at enough
  have few : 4 ≤ 2 := enough
  exact absurd few (by decide)

/-- Whatever the server replies and however it arrives, the client does not understand it. -/
theorem replies_never_understood (memory : Uninitialised) (hostname : CString)
    (output : List UInt8) (rep : UInt8) (address : BoundAddress) (port : UInt16)
    : ¬RoundTrip memory hostname output rep address port := by
  rintro ⟨e, run, understood⟩
  by_cases succeeded : rep = SOCKS5_REP_SUCCEEDED
  · rw [Understood, if_pos succeeded] at understood
    subst succeeded
    cases address with
    | inet address =>
        have left := inet_leaves_byte run understood.completed
        rw [understood.whole] at left
        cases left
    | domain host short => exact domain_not_completed run understood.completed
  · rw [Understood, if_neg succeeded] at understood
    obtain ⟨error, finished⟩ := understood.completed
    exact refusal_not_completed succeeded run finished

/-- The local host. -/
def localHost : BoundAddress := .inet (.ipv4 #v[127, 0, 0, 1])

/-- The reply of a server bound to port 80 of the local host arrives at once: the client succeeds
with the address 1.127.0.0 and the port 256, and has not read the last byte.
-/
theorem reply_read_shifted
    : (∃ e, Arrivals .null (awaiting hostA [] (replyTo 0 localHost 80)) e
        ∧ e.negotiation.next = .completed .success ∧ e.input = [80]
        ∧ e.negotiation.data.buffer.take e.negotiation.data.length = [1, 127, 0, 0, 1, 0])
      ∧ ¬RoundTrip .null hostA [] 0 localHost 80 := by
  let e := awaiting hostA [] (replyTo 0 localHost 80)
  have header : Runs .null e (e.fill .null) :=
    runs_fill (by decide) (by decide) (by decide)
  have address : Runs .null (e.fill .null) ((e.fill .null).fill .null) :=
    runs_fill (by decide +kernel) (by decide +kernel) (by decide +kernel)
  have run : Arrivals .null e ((e.fill .null).fill .null) :=
    (header.trans address).lift id (fun _ _ step => .some step)
  refine ⟨⟨_, run, ?_, ?_, ?_⟩, ?_⟩
  · decide +kernel
  · decide +kernel
  · decide +kernel
  · rintro ⟨e', run', understood⟩
    have readBack : ReadBack localHost 80 e' := understood
    have left := inet_leaves_byte run' readBack.completed
    rw [readBack.whole] at left
    cases left

end McabberJingle.Socks5
