import McabberJingle.Guarantees.Fragmentation

/-! Our client against our server. The server does not find the method in the greeting of the
client and refuses it, so both sides end without success, whatever host was asked for.
-/

namespace McabberJingle.Socks5

open Endpoint

-----------------------------------------------------------------------------------------
-- Two sides
-----------------------------------------------------------------------------------------

/-- Some bytes are written, or all that are there are read, up to what is asked for. -/
inductive Acts (memory : Uninitialised) (e : Endpoint) : Endpoint → Prop
  | wrote (count : Nat) (writing : e.negotiation.next.isWriting = true) (some : 0 < count)
    (fits : count ≤ e.negotiation.wanted)
    : Acts memory e (e.wrote memory count)
  | read (reading : e.negotiation.next.isReading = true) (some : 0 < e.negotiation.wanted)
    (there : e.input ≠ [])
    : Acts memory e (e.read memory (min e.negotiation.wanted e.input.length))

theorem Acts.step {memory : Uninitialised} {e e' : Endpoint} (acts : Acts memory e e')
    : Step memory e e' := by
  cases acts with
  | wrote count writing some fits => exact .wrote count writing some fits
  | read reading some there =>
      have available : 0 < e.input.length := List.length_pos_iff.mpr there
      exact .read _ reading (Nat.lt_min.mpr ⟨some, available⟩) (Nat.min_le_left _ _)
        (Nat.min_le_right _ _)

/-- A client and a server, and the bytes on their way in both directions. -/
structure Connection where
  client : Negotiation
  server : Negotiation
  toServer : List UInt8
  toClient : List UInt8

namespace Connection

def clientEnd (c : Connection) : Endpoint where
  negotiation := c.client
  output := c.toServer
  input := c.toClient

def serverEnd (c : Connection) : Endpoint where
  negotiation := c.server
  output := c.toClient
  input := c.toServer

/-- Our client that asks for a host, connected to our server that allows one. -/
def start (hostname allowed : CString) (address : GInetSocketAddress) : Connection where
  client := socks5ClientNego hostname
  server := socks5ServerNego allowed address
  toServer := []
  toClient := []

/-- One of the two sides reads or writes. -/
inductive Exchange (ofClient ofServer : Uninitialised) (c : Connection) : Connection → Prop
  | client {e : Endpoint} (acts : Acts ofClient c.clientEnd e)
    : Exchange ofClient ofServer c
        { c with client := e.negotiation, toServer := e.output, toClient := e.input }
  | server {e : Endpoint} (acts : Acts ofServer c.serverEnd e)
    : Exchange ofClient ofServer c
        { c with server := e.negotiation, toClient := e.output, toServer := e.input }

/-- Neither side can read or write any more. -/
def Silent (ofClient ofServer : Uninitialised) (c : Connection) : Prop :=
  ∀ c', ¬Exchange ofClient ofServer c c'

/-- The state after as many reads and writes. -/
inductive After (ofClient ofServer : Uninitialised) (c : Connection) : Nat → Connection → Prop
  | start : After ofClient ofServer c 0 c
  | next {n : Nat} {c₁ c₂ : Connection} (run : After ofClient ofServer c n c₁)
    (exchange : Exchange ofClient ofServer c₁ c₂)
    : After ofClient ofServer c (n + 1) c₂

/-- Both sides completed, and every byte was read. -/
def Agreed (c : Connection) : Prop :=
  c.client.next = .completed .success ∧ c.server.next = .completed .success
  ∧ c.toServer = [] ∧ c.toClient = []

/-- Neither side completed with success. -/
def Refused (c : Connection) : Prop :=
  c.client.next ≠ .completed .success ∧ c.server.next ≠ .completed .success

end Connection

open Connection

/-- The client and the server end after finitely many reads and writes, in agreement on the
host that is allowed and on no other.
-/
structure Agree (ofClient ofServer : Uninitialised) (hostname allowed : CString)
    (address : GInetSocketAddress)
    : Prop where
  finite : ∃ bound, ∀ n c, After ofClient ofServer (start hostname allowed address) n c → n ≤ bound
  agreed : hostname = allowed →
    ∀ n c, After ofClient ofServer (start hostname allowed address) n c →
      Silent ofClient ofServer c → c.Agreed
  refused : hostname ≠ allowed →
    ∀ n c, After ofClient ofServer (start hostname allowed address) n c →
      Silent ofClient ofServer c → c.Refused

-----------------------------------------------------------------------------------------
-- The phases of the client
-----------------------------------------------------------------------------------------

variable {ofClient ofServer memory : Uninitialised} {hostname allowed : CString}
  {address : GInetSocketAddress}

/-- The answer of the server. -/
def refusal : List UInt8 := serverSetNegoReplyMsg SOCKS5_AUTH_NO_ACCEPT

/-- A negotiation that is over without success. -/
inductive Failed (n : Negotiation) : Prop
  | error {error : Error} (completed : n.next = .completed (.error error))
  | undefined {what : Undefined} (undefined : n.next = .undefined what)

theorem Failed.not_success {n : Negotiation} (failed : Failed n)
    : n.next ≠ .completed .success := by
  intro success
  cases failed with
  | error completed => cases success.symm.trans completed
  | undefined undefined => cases success.symm.trans undefined

theorem Failed.stopped {e : Endpoint} (failed : Failed e.negotiation) : Over memory e := by
  cases failed with
  | error completed => exact over_of_completed completed
  | undefined undefined =>
      exact over_of_ended (by rw [undefined]; rfl) (by rw [undefined]; rfl)

/-- A step of a side that has written `k` bytes of a message. -/
theorem writing_step (msg rest : List UInt8) {data : ConnectAsyncData} {out inp : List UInt8}
    {k : Nat} {callback : WriteCallback} {e' : Endpoint} (buffer : data.buffer = msg ++ rest)
    (length : data.length = msg.length)
    (step : Step memory
      { negotiation := { data with offset := k }.doWrite callback, output := out, input := inp } e')
    : ∃ count more, 0 < count ∧ k + count ≤ msg.length
        ∧ e'.output = out ++ more ∧ e'.input = inp ∧ msg.take k ++ more = msg.take (k + count)
        ∧ e'.negotiation =
            if k + count = msg.length then
              callback.done { data with offset := k + count }
            else
              { data with offset := k + count }.doWrite callback := by
  cases step with
  | read count reading => cases reading
  | wrote count writing some fits =>
      have within : count ≤ data.length - k := fits
      have inside : k + count ≤ msg.length := by omega
      have part : ((data.buffer.drop k).take count) = (msg.drop k).take count := by
        rw [buffer, List.drop_append_of_le_length (by omega), List.take_append_of_le_length]
        rw [List.length_drop]
        omega
      refine ⟨count, (data.buffer.drop k).take count, some, inside, rfl, rfl, ?_, ?_⟩
      · rw [part, List.take_add]
      · rw [wrote_eq memory rfl, ← length]
        rfl

/-- What a client has sent and has read, and how many bytes it writes and reads yet at most. -/
inductive ClientPhase (hostname : CString)
    : Negotiation → List UInt8 → List UInt8 → Nat → Prop
  | greets {k : Nat} (unfinished : k < 3)
    : ClientPhase hostname
        ({ (socks5ClientNego hostname).data with offset := k }.doWrite .negoMsg)
        ((clientSetNegoMsg false).take k) [] (5 - k)
  | waits {read : List UInt8} (short : read.length < 2)
    : ClientPhase hostname (((clientAt hostname 2 2).received read).doRead .negoReply)
        (clientSetNegoMsg false) read (2 - read.length)
  | failed {n : Negotiation} {read : List UInt8} (failed : Failed n)
    : ClientPhase hostname n (clientSetNegoMsg false) read 0

theorem ClientPhase.sent {n : Negotiation} {sent read : List UInt8} {left : Nat}
    (phase : ClientPhase hostname n sent read left)
    : sent <+: clientSetNegoMsg false := by
  cases phase with
  | greets unfinished => exact List.take_prefix _ _
  | waits short => exact List.prefix_rfl
  | failed failed => exact List.prefix_rfl

theorem ClientPhase.not_success {n : Negotiation} {sent read : List UInt8} {left : Nat}
    (phase : ClientPhase hostname n sent read left)
    : n.next ≠ .completed .success := by
  cases phase with
  | greets unfinished => exact fun success => by cases success
  | waits short => exact fun success => by cases success
  | failed failed => exact failed.not_success

/-- The client ends when it has read the answer. -/
theorem refused_failed (memory : Uninitialised) (hostname : CString)
    : Failed (((clientAt hostname 2 2).received refusal).onNegoReply memory) := by
  cases memory with
  | null => exact .error rfl
  | wild => exact .undefined rfl

/-- A step of a client that has read some bytes of the answer. -/
theorem waiting_step {read out inp : List UInt8} {e' : Endpoint} (short : read.length < 2)
    (step : Step memory
      { negotiation := ((clientAt hostname 2 2).received read).doRead .negoReply
        output := out, input := inp } e')
    : ∃ taken, taken ≠ [] ∧ (read ++ taken).length ≤ 2 ∧ e'.output = out
        ∧ inp = taken ++ e'.input
        ∧ e'.negotiation =
            if (read ++ taken).length = 2 then
              ((clientAt hostname 2 2).received (read ++ taken)).onNegoReply memory
            else
              ((clientAt hostname 2 2).received (read ++ taken)).doRead .negoReply := by
  cases step with
  | wrote count writing => cases writing
  | read count reading some fits there =>
      have taken : (inp.take count).length = count := List.length_take_of_le there
      have within : count ≤ 2 - (0 + read.length) := fits
      have begun : 0 + read.length < 2 := by omega
      have size : ((clientAt hostname 2 2).received read).buffer.length = 2 :=
        ConnectAsyncData.length_received (Nat.le_of_lt begun)
      have counted : Counted
          ⟨((clientAt hostname 2 2).received read).doRead .negoReply, out, inp⟩ .negoReply :=
        ⟨rfl, rfl, begun⟩
      have joined : ((clientAt hostname 2 2).received read).received (inp.take count)
          = (clientAt hostname 2 2).received (read ++ inp.take count) :=
        ConnectAsyncData.received_received (Nat.le_of_lt begun)
      have length : (read ++ inp.take count).length = 0 + read.length + count := by
        rw [List.length_append, taken, Nat.zero_add]
      refine ⟨inp.take count, List.ne_nil_of_length_pos (by omega), by omega, rfl,
        (List.take_append_drop ..).symm, ?_⟩
      rw [counted.read_eq there, length, ← joined]
      · rfl
      · change 0 + read.length + count ≤ ((clientAt hostname 2 2).received read).buffer.length
        omega

/-- Every step of a client that is sent the refusal. -/
theorem ClientPhase.step {n : Negotiation} {sent read out inp : List UInt8} {left : Nat}
    {e' : Endpoint} (phase : ClientPhase hostname n sent read left)
    (answer : read ++ inp <+: refusal)
    (step : Step memory { negotiation := n, output := out, input := inp } e')
    : ∃ more taken left', e'.output = out ++ more ∧ inp = taken ++ e'.input
        ∧ ClientPhase hostname e'.negotiation (sent ++ more) (read ++ taken) left'
        ∧ left' < left := by
  cases phase with
  | @greets k unfinished =>
      obtain ⟨count, more, some, inside, output, input, sent, negotiation⟩ :=
        writing_step (clientSetNegoMsg false) [0] rfl rfl step
      have length : (clientSetNegoMsg false).length = 3 := rfl
      rw [length] at inside negotiation
      rw [output, input, negotiation]
      by_cases all : k + count = 3
      · refine ⟨more, [], 2, rfl, rfl, ?_, by omega⟩
        rw [if_pos all, sent, all]
        exact ClientPhase.waits (by decide : ([] : List UInt8).length < 2)
      · refine ⟨more, [], 5 - (k + count), rfl, rfl, ?_, by omega⟩
        rw [if_neg all, sent]
        exact .greets (by omega)
  | waits short =>
      obtain ⟨taken, some, inside, output, input, negotiation⟩ := waiting_step short step
      have more : 0 < taken.length := List.length_pos_iff.mpr some
      rw [List.length_append] at inside
      rw [output, negotiation]
      refine ⟨[], taken, 2 - (read ++ taken).length, (List.append_nil _).symm, input, ?_, by
        rw [List.length_append]; omega⟩
      rw [List.append_nil]
      by_cases all : (read ++ taken).length = 2
      · have same : read ++ taken = refusal := by
          refine List.IsPrefix.eq_of_length (List.IsPrefix.trans ?_ answer) all
          rw [input, ← List.append_assoc]
          exact List.prefix_append _ _
        rw [if_pos all, same]
        exact .failed (refused_failed memory hostname)
      · rw [if_neg all]
        refine .waits ?_
        rw [List.length_append] at all ⊢
        omega
  | failed failed => exact absurd step (failed.stopped e')

-----------------------------------------------------------------------------------------
-- The phases of the server
-----------------------------------------------------------------------------------------

/-- What a server has sent and has read, and how many bytes it reads and writes yet at most. -/
inductive ServerPhase (allowed : CString) (address : GInetSocketAddress)
    : Negotiation → List UInt8 → List UInt8 → Nat → Prop
  | reads {read : List UInt8} (short : read.length < 3)
    : ServerPhase allowed address ((serverAt allowed address read).doRead .negoMsg) [] read
        (5 - read.length)
  | refuses {data : ConnectAsyncData} {k : Nat} (buffer : data.buffer = refusal)
    (length : data.length = 2) (unfinished : k < 2)
    : ServerPhase allowed address ({ data with offset := k }.doWrite .noSupportedMethod)
        (refusal.take k) (clientSetNegoMsg false) (2 - k)
  | failed {n : Negotiation} {sent : List UInt8} (failed : Failed n) (begun : sent <+: refusal)
    : ServerPhase allowed address n sent (clientSetNegoMsg false) 0

theorem ServerPhase.sent {n : Negotiation} {sent read : List UInt8} {left : Nat}
    (phase : ServerPhase allowed address n sent read left)
    : sent <+: refusal := by
  cases phase with
  | reads short => exact List.nil_prefix
  | refuses buffer length unfinished => exact List.take_prefix _ _
  | failed failed begun => exact begun

theorem ServerPhase.not_success {n : Negotiation} {sent read : List UInt8} {left : Nat}
    (phase : ServerPhase allowed address n sent read left)
    : n.next ≠ .completed .success := by
  cases phase with
  | reads short => exact fun success => by cases success
  | refuses buffer length unfinished => exact fun success => by cases success
  | failed failed begun => exact failed.not_success

/-- A server that has read the greeting of the client refuses it. -/
theorem answered_greeting (allowed : CString) (address : GInetSocketAddress)
    (memory : Uninitialised) (data : ConnectAsyncData)
    : ∃ left, left < 3 ∧ ServerPhase allowed address
        (answered memory data (serverParseNegoInit (clientSetNegoMsg false) 3)) []
        (clientSetNegoMsg false) left := by
  cases memory with
  | null =>
      let refused : ConnectAsyncData := { data with buffer := refusal, length := 2 }
      have phase : ServerPhase allowed address
          ({ refused with offset := 0 }.doWrite .noSupportedMethod) (refusal.take 0)
          (clientSetNegoMsg false) (2 - 0) :=
        .refuses rfl rfl (by decide)
      exact ⟨2, by decide, phase⟩
  | wild => exact ⟨0, by decide, .failed (.undefined rfl) List.nil_prefix⟩

/-- The greeting of our client takes three bytes, as far as it is there. -/
theorem greetingLength_client {received : List UInt8} (begun : received <+: clientSetNegoMsg false)
    : greetingLength received = 3 := by
  have method (n : Nat) : byteAt ((clientSetNegoMsg false).take n) 2 = 0 := by
    rcases n with _ | _ | _ | n <;> rfl
  rw [greetingLength, List.prefix_iff_eq_take.mp begun, method]
  rfl

/-- A step of a server that has read some bytes of the greeting. -/
theorem greeting_step {read out inp : List UInt8} {e' : Endpoint}
    (greets : read ++ inp <+: clientSetNegoMsg false)
    (step : Step memory
      { negotiation := (serverAt allowed address read).doRead .negoMsg
        output := out, input := inp } e')
    : ∃ taken, taken ≠ [] ∧ e'.output = out ∧ inp = taken ++ e'.input
        ∧ e'.negotiation =
            if (read ++ taken).length = 3 then
              answered memory (serverAt allowed address (read ++ taken))
                (serverParseNegoInit (read ++ taken) 3)
            else
              (serverAt allowed address (read ++ taken)).doRead .negoMsg := by
  cases step with
  | wrote count writing => cases writing
  | read count reading some fits there =>
      have total : (read ++ inp).length ≤ 3 := greets.length_le
      have length := greetingLength_client greets
      have front : (read ++ inp).take read.length = read := List.take_left
      have back : (read ++ inp).drop read.length = inp := List.drop_left
      have piece : (read ++ inp).take (read.length + count) = read ++ inp.take count :=
        List.take_length_add_append count
      have taken : (read ++ inp.take count).length = read.length + count := by
        rw [List.length_append, List.length_take_of_le there]
      have there' : read.length + count ≤ (read ++ inp).length := by
        rw [List.length_append]
        exact Nat.add_le_add_left there _
      have room : read.length + count ≤ SOCKS5_NEGO_MSG_LEN :=
        Nat.le_trans there' (Nat.le_trans total (by decide))
      have after : (greeting allowed address (read ++ inp) read.length).read memory count
          = greeted memory allowed address (read ++ inp) (read.length + count) :=
        greeting_read memory allowed address there' room
      have state : greeting allowed address (read ++ inp) read.length
          = ⟨(serverAt allowed address read).doRead .negoMsg, [], inp⟩ := by
        rw [greeting, front, back]
      have same : (Endpoint.read memory
            ⟨(serverAt allowed address read).doRead .negoMsg, out, inp⟩ count).negotiation
          = (greeted memory allowed address (read ++ inp) (read.length + count)).negotiation := by
        rw [← after, state]
        rfl
      refine ⟨inp.take count, List.ne_nil_of_length_pos (by
        rw [List.length_take_of_le there]; exact some), rfl, (List.take_append_drop ..).symm, ?_⟩
      rw [same, taken]
      by_cases all : read.length + count = 3
      · have whole : read ++ inp.take count = read ++ inp := by
          rw [← piece]
          exact List.take_of_length_le (all ▸ total)
        rw [if_pos all, greeted_complete memory allowed address there' room (by omega), piece, all,
          whole]
      · rw [if_neg all, greeted_short memory allowed address there' room (by omega), greeting,
          piece]

/-- Every step of a server that is sent the greeting of our client. -/
theorem ServerPhase.step {n : Negotiation} {sent read out inp : List UInt8} {left : Nat}
    {e' : Endpoint} (phase : ServerPhase allowed address n sent read left)
    (greets : read ++ inp <+: clientSetNegoMsg false)
    (step : Step memory { negotiation := n, output := out, input := inp } e')
    : ∃ more taken left', e'.output = out ++ more ∧ inp = taken ++ e'.input
        ∧ ServerPhase allowed address e'.negotiation (sent ++ more) (read ++ taken) left'
        ∧ left' < left := by
  cases phase with
  | @reads read short =>
      obtain ⟨taken, some, output, input, negotiation⟩ := greeting_step greets step
      have more : 0 < taken.length := List.length_pos_iff.mpr some
      rw [output, negotiation]
      by_cases all : (read ++ taken).length = 3
      · have same : read ++ taken = clientSetNegoMsg false := by
          refine List.IsPrefix.eq_of_length (List.IsPrefix.trans ?_ greets) all
          rw [input, ← List.append_assoc]
          exact List.prefix_append _ _
        obtain ⟨left, less, phase⟩ := answered_greeting allowed address memory
          (serverAt allowed address (clientSetNegoMsg false))
        refine ⟨[], taken, left, (List.append_nil _).symm, input, ?_, by omega⟩
        rw [if_pos all, same]
        exact phase
      · have inside : (read ++ taken ++ e'.input).length ≤ 3 := by
          rw [List.append_assoc, ← input]
          exact greets.length_le
        refine ⟨[], taken, 5 - (read ++ taken).length, (List.append_nil _).symm, input, ?_, ?_⟩
        · rw [if_neg all]
          refine .reads ?_
          rw [List.length_append] at inside
          omega
        · rw [List.length_append]
          omega
  | @refuses data k buffer length unfinished =>
      obtain ⟨count, more, some, inside, output, input, sent, negotiation⟩ :=
        writing_step refusal [] (by rw [buffer, List.append_nil])
          (by rw [length]; rfl) step
      have two : refusal.length = 2 := rfl
      rw [two] at inside negotiation
      rw [output, input, negotiation]
      refine ⟨more, [], 2 - (k + count), rfl, rfl, ?_, by omega⟩
      rw [sent, List.append_nil]
      by_cases all : k + count = 2
      · rw [if_pos all, all]
        exact .failed (.error rfl) (List.take_prefix _ _)
      · rw [if_neg all]
        exact .refuses buffer length (by omega)
  | failed failed begun => exact absurd step (failed.stopped e')

-----------------------------------------------------------------------------------------
-- Runs
-----------------------------------------------------------------------------------------

/-- Both sides are in some phase, and what was sent and not read is on its way. -/
structure Underway (hostname allowed : CString) (address : GInetSocketAddress) (c : Connection)
    (sentByClient readByClient sentByServer readByServer : List UInt8)
    (leftOfClient leftOfServer : Nat)
    : Prop where
  client : ClientPhase hostname c.client sentByClient readByClient leftOfClient
  server : ServerPhase allowed address c.server sentByServer readByServer leftOfServer
  toServer : sentByClient = readByServer ++ c.toServer
  toClient : sentByServer = readByClient ++ c.toClient

/-- Both sides are underway and read and write at most so many times yet. -/
def UnderwayFor (hostname allowed : CString) (address : GInetSocketAddress) (c : Connection)
    (left : Nat)
    : Prop :=
  ∃ sentByClient readByClient sentByServer readByServer leftOfClient leftOfServer,
    Underway hostname allowed address c sentByClient readByClient sentByServer readByServer
      leftOfClient leftOfServer
    ∧ leftOfClient + leftOfServer = left

theorem underwayFor_start
    : UnderwayFor hostname allowed address (start hostname allowed address) 10 := by
  have client : ClientPhase hostname (socks5ClientNego hostname) [] [] 5 :=
    .greets (k := 0) (by decide)
  have server : ServerPhase allowed address (socks5ServerNego allowed address) [] [] 5 :=
    ServerPhase.reads (by decide : ([] : List UInt8).length < 3)
  exact ⟨[], [], [], [], 5, 5, ⟨client, server, rfl, rfl⟩, rfl⟩

/-- A read or a write of one side. -/
theorem UnderwayFor.exchange {c c' : Connection} {left : Nat}
    (underway : UnderwayFor hostname allowed address c left)
    (exchange : Exchange ofClient ofServer c c')
    : ∃ left' < left, UnderwayFor hostname allowed address c' left' := by
  obtain ⟨sentByClient, readByClient, sentByServer, readByServer, leftOfClient, leftOfServer,
    both, rfl⟩ := underway
  cases exchange with
  | client acts =>
      have answer : readByClient ++ c.toClient <+: refusal := both.toClient ▸ both.server.sent
      obtain ⟨more, taken, left', output, input, phase, less⟩ :=
        both.client.step answer acts.step
      refine ⟨left' + leftOfServer, Nat.add_lt_add_right less _, _, _, _, _, _, _,
        ⟨phase, both.server, ?_, ?_⟩, rfl⟩
      · rw [both.toServer, output, List.append_assoc]
      · rw [both.toClient, input, List.append_assoc]
  | server acts =>
      have greets : readByServer ++ c.toServer <+: clientSetNegoMsg false :=
        both.toServer ▸ both.client.sent
      obtain ⟨more, taken, left', output, input, phase, less⟩ :=
        both.server.step greets acts.step
      refine ⟨leftOfClient + left', Nat.add_lt_add_left less _, _, _, _, _, _, _,
        ⟨both.client, phase, ?_, ?_⟩, rfl⟩
      · rw [both.toServer, input, List.append_assoc]
      · rw [both.toClient, output, List.append_assoc]

/-- By induction on the run: it has at most ten reads and writes. -/
theorem underwayFor_after {n : Nat} {c : Connection}
    (run : After ofClient ofServer (start hostname allowed address) n c)
    : ∃ left, UnderwayFor hostname allowed address c left ∧ n + left ≤ 10 := by
  induction run with
  | start => exact ⟨10, underwayFor_start, Nat.le_refl _⟩
  | next run exchange ih =>
      obtain ⟨left, underway, fits⟩ := ih
      obtain ⟨left', less, underway'⟩ := underway.exchange exchange
      exact ⟨left', underway', by omega⟩

/-- No run ends with success on either side. -/
theorem refused_after {n : Nat} {c : Connection}
    (run : After ofClient ofServer (start hostname allowed address) n c)
    : c.Refused := by
  obtain ⟨left, underway, _⟩ := underwayFor_after run
  obtain ⟨_, _, _, _, _, _, both, _⟩ := underway
  exact ⟨both.client.not_success, both.server.not_success⟩

/-- A run of bounded length can be continued until both sides are silent. -/
theorem exists_silent {c : Connection} {bound : Nat}
    (bounded : ∀ n c', After ofClient ofServer c n c' → n ≤ bound)
    : ∃ n c', After ofClient ofServer c n c' ∧ Silent ofClient ofServer c' := by
  have longest (more : Nat) : ∀ n c', After ofClient ofServer c n c' → bound ≤ n + more →
      ∃ n c', After ofClient ofServer c n c' ∧ Silent ofClient ofServer c' := by
    induction more with
    | zero =>
        intro n c' run long
        refine ⟨n, c', run, fun next exchange => ?_⟩
        have := bounded _ _ (.next run exchange)
        omega
    | succ more ih =>
        intro n c' run long
        by_cases silent : Silent ofClient ofServer c'
        · exact ⟨n, c', run, silent⟩
        · simp only [Silent, Classical.not_forall, Classical.not_not] at silent
          obtain ⟨next, exchange⟩ := silent
          exact ih (n + 1) next (.next run exchange) (by omega)
  exact longest bound 0 c .start (by omega)

/-- The two sides agree exactly when the host that is asked for is not the one allowed. -/
theorem agree_iff (ofClient ofServer : Uninitialised) (hostname allowed : CString)
    (address : GInetSocketAddress)
    : Agree ofClient ofServer hostname allowed address ↔ hostname ≠ allowed := by
  have bounded : ∀ n c, After ofClient ofServer (start hostname allowed address) n c →
      n ≤ 10 := by
    intro n c run
    obtain ⟨left, _, fits⟩ := underwayFor_after run
    omega
  constructor
  · intro agree same
    obtain ⟨n, c, run, silent⟩ := exists_silent bounded
    exact (refused_after run).1 (agree.agreed same n c run silent).1
  · intro different
    exact ⟨⟨10, bounded⟩, fun same => absurd same different,
      fun _ n c run _ => refused_after run⟩

/-- The host "a" is refused where it is allowed. -/
theorem same_host_refused
    : ¬∀ ofClient ofServer hostname allowed address,
        0 < hostname.strlen → hostname.strlen ≤ SOCKS5_MAX_LEN →
        0 < allowed.strlen → allowed.strlen ≤ SOCKS5_MAX_LEN →
          Agree ofClient ofServer hostname allowed address := by
  intro claimed
  have agree := claimed .null .null hostA hostA anyAddress (by decide) (by decide) (by decide)
    (by decide)
  obtain ⟨bound, bounded⟩ := agree.finite
  obtain ⟨n, c, run, silent⟩ := exists_silent bounded
  exact (refused_after run).1 (agree.agreed rfl n c run silent).1

end McabberJingle.Socks5
