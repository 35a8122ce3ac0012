import Mathlib.Data.List.TakeWhile
import McabberJingle.Guarantees.Fragmentation

/-! Which requests the SOCKS5 server takes. -/

namespace McabberJingle.Socks5

open Endpoint Relation

variable {memory : Uninitialised} {allowed : CString} {address : GInetSocketAddress}
  {input : List UInt8}

-----------------------------------------------------------------------------------------
-- Whole reads
-----------------------------------------------------------------------------------------

/-- The pending write ends with some bytes, or the pending read with all that it asks for. -/
inductive FullStep (memory : Uninitialised) (e : Endpoint) : Endpoint → Prop
  | wrote (count : Nat) (writing : e.negotiation.next.isWriting = true) (some : 0 < count)
    (fits : count ≤ e.negotiation.wanted)
    : FullStep memory e (e.wrote memory count)
  | filled (reading : e.negotiation.next.isReading = true)
    (there : e.negotiation.wanted ≤ e.input.length)
    : FullStep memory e (e.fill memory)

/-- Runs in which each read returns the requested length. -/
abbrev FullRuns (memory : Uninitialised) : Endpoint → Endpoint → Prop :=
  ReflTransGen (FullStep memory)

/-- Nothing more happens. -/
def FullOver (memory : Uninitialised) (e : Endpoint) : Prop := ∀ e', ¬FullStep memory e e'

/-- Every such run from `e` to the end passes through `e₁`. -/
structure FullLeads (memory : Uninitialised) (e e₁ : Endpoint) : Prop where
  runs : FullRuns memory e e₁
  through : ∀ e', FullRuns memory e e' → FullOver memory e' → FullRuns memory e₁ e'

-----------------------------------------------------------------------------------------
-- What the server is to do
-----------------------------------------------------------------------------------------

/-- The server has selected the method and waits for the request. -/
def requesting (allowed : CString) (address : GInetSocketAddress) (input : List UInt8)
    : Endpoint where
  negotiation :=
    (socks5ServerNego allowed address).data.expect SOCKS5_CONN_MSG_LEN 4 .connectMsg
  output := serverSetNegoReplyMsg SOCKS5_AUTH_NONE
  input := input

/-- A server that accepts a greeting gets there. -/
theorem requesting_reached {received : List UInt8} {n : Nat} (there : n ≤ received.length)
    (room : n ≤ SOCKS5_NEGO_MSG_LEN) (complete : greetingLength received ≤ n)
    (accepted : serverParseNegoInit received n = .ok ())
    : Runs memory
        { negotiation := socks5ServerNego allowed address, output := [], input := received }
        (requesting allowed address (received.drop n)) := by
  have greets := greeting_runs memory allowed address (Nat.lt_of_lt_of_le (Nat.succ_pos _) complete)
    there room
  rw [greeted_eq memory allowed address there room complete, accepted] at greets
  exact greets.trans (runs_flush rfl (Nat.succ_pos 1))

/-- The bytes start with a request of version 5 with a domain name. -/
structure NamesHost (input : List UInt8) (cmd : UInt8) (addr : List UInt8) : Prop where
  short : addr.length ≤ SOCKS5_MAX_LEN
  request : ∃ rsv port rest, port.length = 2
    ∧ input = [SOCKS5_VERSION, cmd, rsv, SOCKS5_ATYP_DOMAINNAME, UInt8.ofNat addr.length]
      ++ addr ++ port ++ rest

/-- The request is CONNECT for the allowed host, with any RSV and port. -/
def RequestFor (allowed : CString) (input : List UInt8) : Prop :=
  NamesHost input SOCKS5_CMD_CONNECT allowed.bytes

/-- A run that does not wait for more bytes ends with success for the right request alone, and
with an error for every other one.
-/
def AdmitsRightly (memory : Uninitialised) (allowed : CString) (address : GInetSocketAddress)
    (input : List UInt8)
    : Prop :=
  ∀ e', FullRuns memory (requesting allowed address input) e' → FullOver memory e' →
    e'.negotiation.next.isReading = false →
      (e'.negotiation.next = .completed .success ↔ RequestFor allowed input)
      ∧ (¬RequestFor allowed input → ∃ error, e'.negotiation.next = .completed (.error error))

-----------------------------------------------------------------------------------------
-- Passing through
-----------------------------------------------------------------------------------------

section Leading

variable {e e₁ e₂ : Endpoint}

theorem FullLeads.trans (first : FullLeads memory e e₁) (second : FullLeads memory e₁ e₂)
    : FullLeads memory e e₂ where
  runs := first.runs.trans second.runs
  through e' run stopped := second.through e' (first.through e' run stopped) stopped

theorem FullLeads.refl (memory : Uninitialised) (e : Endpoint) : FullLeads memory e e where
  runs := .refl
  through _ run _ := run

theorem fullStep_writes (memory : Uninitialised) : Writes memory (FullStep memory) where
  all writing some := .wrote _ writing some (Nat.le_refl _)
  some := by
    intro e e' writing step
    cases step with
    | wrote count _ _ fits => exact ⟨count, fits, rfl⟩
    | filled reading =>
        cases next : e.negotiation.next <;>
          simp [next, Next.isReading, Next.isWriting] at reading writing

theorem fullLeads_flush {callback : WriteCallback}
    (writing : e.negotiation.next = .writing callback) (some : 0 < e.negotiation.wanted)
    : FullLeads memory e (e.flush memory) where
  runs := .single ((fullStep_writes memory).all (by rw [writing]; rfl) some)
  through _ run stopped := (fullStep_writes memory).through writing some run stopped

theorem fullLeads_fill (reading : e.negotiation.next.isReading = true)
    (there : e.negotiation.wanted ≤ e.input.length)
    : FullLeads memory e (e.fill memory) where
  runs := .single (.filled reading there)
  through e' run stopped := by
    cases run.cases_head with
    | inl same =>
        subst same
        exact absurd (.filled reading there) (stopped _)
    | inr first =>
        obtain ⟨next, step, rest⟩ := first
        cases step with
        | wrote count writing =>
            cases is : e.negotiation.next <;>
              simp [is, Next.isReading, Next.isWriting] at reading writing
        | filled => exact rest

theorem fullOver_of_completed {completion : Completion}
    (completed : e.negotiation.next = .completed completion)
    : FullOver memory e := by
  intro e' step
  cases step with
  | wrote count writing => rw [completed] at writing; cases writing
  | filled reading => rw [completed] at reading; cases reading

theorem fullOver_of_starved {callback : ReadCallback}
    (reading : e.negotiation.next = .reading callback)
    (missing : e.input.length < e.negotiation.wanted)
    : FullOver memory e := by
  intro e' step
  cases step with
  | wrote count writing => rw [reading] at writing; cases writing
  | filled _ there => exact absurd there (Nat.not_le.mpr missing)

/-- A run from where nothing more happens stays there. -/
theorem FullOver.runs_eq (stopped : FullOver memory e) (run : FullRuns memory e e₁) : e₁ = e := by
  cases run.cases_head with
  | inl same => exact same.symm
  | inr first =>
      obtain ⟨next, step, _⟩ := first
      exact absurd step (stopped next)

end Leading

-----------------------------------------------------------------------------------------
-- The three reads
-----------------------------------------------------------------------------------------

/-- How a run ends: it waits for more bytes, fails, or succeeds when the request is taken. -/
inductive Ends (taken : Prop) (next : Next) : Prop
  | waits (reading : next.isReading = true) (other : ¬taken)
  | fails (error : Error) (completed : next = .completed (.error error)) (other : ¬taken)
  | succeeds (completed : next = .completed .success) (took : taken)

theorem Ends.of_iff {taken taken' : Prop} {next : Next} (same : taken ↔ taken')
    (ends : Ends taken next)
    : Ends taken' next := by
  rwa [propext same] at ends

/-- Every such run from `e` ends so. -/
def AllEnd (memory : Uninitialised) (e : Endpoint) (taken : Prop) : Prop :=
  ∃ e₁, FullLeads memory e e₁ ∧ FullOver memory e₁ ∧ Ends taken e₁.negotiation.next

theorem AllEnd.after {e e₁ : Endpoint} {taken taken' : Prop} (leads : FullLeads memory e e₁)
    (same : taken ↔ taken') (ends : AllEnd memory e₁ taken)
    : AllEnd memory e taken' := by
  obtain ⟨e₂, more, stopped, how⟩ := ends
  exact ⟨e₂, leads.trans more, stopped, how.of_iff same⟩

/-- A read that does not get what it asks for. -/
theorem allEnd_starved {e : Endpoint} {callback : ReadCallback} {taken : Prop}
    (reading : e.negotiation.next = .reading callback)
    (missing : e.input.length < e.negotiation.wanted) (other : ¬taken)
    : AllEnd memory e taken :=
  ⟨e, .refl memory e, fullOver_of_starved reading missing, .waits (by rw [reading]; rfl) other⟩

/-- A read whose callback refuses. -/
theorem allEnd_refused {e e₁ : Endpoint} {error : Error} {taken : Prop}
    (leads : FullLeads memory e e₁)
    (completed : e₁.negotiation.next = .completed (.error error)) (other : ¬taken)
    : AllEnd memory e taken :=
  ⟨e₁, leads, fullOver_of_completed completed, .fails error completed other⟩

theorem gStrndup_eq_iff (str : CString) (buffer : List UInt8) (n : Nat)
    : str = gStrndup buffer n ↔ (buffer.take n).takeWhile (· != 0) = str.bytes := by
  obtain ⟨bytes, nulFree⟩ := str
  rw [gStrndup, CString.mk.injEq]
  exact eq_comm

/-- What was stored from the start of the buffer. -/
theorem take_received {data : ConnectAsyncData} (start : data.offset = 0) (bytes : List UInt8)
    {n : Nat} (there : n ≤ bytes.length)
    : (data.received bytes).buffer.take n = bytes.take n := by
  simp only [ConnectAsyncData.received, ConnectAsyncData.kept, start, List.take_zero,
    List.nil_append]
  exact List.take_append_of_le_length there

theorem connectReply_pos (address : GInetSocketAddress)
    : 0 < (ConnectAsyncData.connectReply address).length := by
  obtain ⟨address, port⟩ := address
  cases address <;>
    simp [ConnectAsyncData.connectReply, serverSetConnectReply, SOCKS5_ATYP_IPV4,
      SOCKS5_ATYP_IPV6, SOCKS5_ATYP_DOMAINNAME]

/-- The data of a server that reads into the buffer of a request. -/
structure Serving (allowed : CString) (address : GInetSocketAddress) (data : ConnectAsyncData)
    : Prop where
  host : data.hostname = allowed
  external : data.externalAddress = some address
  size : data.buffer.length = SOCKS5_CONN_MSG_LEN

/-- The server has the right address, and completes when its reply is written. -/
theorem admitted_leads (memory : Uninitialised) (address : GInetSocketAddress)
    (data : ConnectAsyncData) (output left : List UInt8)
    : ∃ e₁, FullLeads memory
          { negotiation := data.build SOCKS5_CONN_REP_LEN
              (ConnectAsyncData.connectReply address) .connectReply
            output, input := left } e₁
        ∧ e₁.negotiation.next = .completed .success := by
  rw [build_eq (connectReply_length address)]
  let e : Endpoint := {
    negotiation := ConnectAsyncData.doWrite .connectReply { data with
      buffer := ConnectAsyncData.connectReply address ++ List.replicate
        (SOCKS5_CONN_REP_LEN - (ConnectAsyncData.connectReply address).length) 0
      length := (ConnectAsyncData.connectReply address).length
      offset := 0 }
    output, input := left }
  have leads : FullLeads memory e (e.flush memory) :=
    fullLeads_flush rfl (connectReply_pos address)
  refine ⟨e.flush memory, leads, ?_⟩
  rw [flush_eq rfl (Nat.zero_le _)]
  rfl

/-- The server reads an address of `n` bytes and a port; it compares the address up to its first
NUL.
-/
theorem address_ends (memory : Uninitialised) {data : ConnectAsyncData}
    (serving : Serving allowed address data) {n : Nat} (small : n ≤ SOCKS5_MAX_LEN)
    (output rest : List UInt8)
    : AllEnd memory { negotiation := data.refill (n + 2) .connectAddr, output, input := rest }
        (n + 2 ≤ rest.length ∧ (rest.take n).takeWhile (· != 0) = allowed.bytes) := by
  let e : Endpoint := { negotiation := data.refill (n + 2) .connectAddr, output, input := rest }
  rcases Nat.lt_or_ge rest.length (n + 2) with missing | there
  · exact allEnd_starved (e := e) rfl missing
      (fun taken => absurd taken.1 (Nat.not_le.mpr missing))
  have counted : Counted e .connectAddr := ⟨rfl, rfl, Nat.succ_pos _⟩
  have room : e.negotiation.data.length ≤ e.negotiation.data.buffer.length := by
    change n + 2 ≤ data.buffer.length
    rw [serving.size, SOCKS5_CONN_MSG_LEN]
    rw [SOCKS5_MAX_LEN] at small
    omega
  have leads : FullLeads memory e (e.fill memory) := fullLeads_fill rfl there
  rw [counted.fill_eq there room] at leads
  let stored := e.negotiation.data.received (rest.take (n + 2))
  have front : stored.buffer.take n = rest.take n := by
    have taken : (rest.take (n + 2)).length = n + 2 := List.length_take_of_le there
    rw [take_received rfl _ (by rw [taken]; omega), List.take_take, Nat.min_eq_left (by omega)]
  have compared : stored.hostname = gStrndup stored.buffer (stored.length - 2)
      ↔ (rest.take n).takeWhile (· != 0) = allowed.bytes := by
    have host : stored.hostname = allowed := serving.host
    have length : stored.length - 2 = n := rfl
    rw [gStrndup_eq_iff, length, front, host]
  by_cases right : (rest.take n).takeWhile (· != 0) = allowed.bytes
  · have made : stored.onConnectAddr = stored.build SOCKS5_CONN_REP_LEN
        (ConnectAsyncData.connectReply address) .connectReply := by
      have external : stored.externalAddress = some address := serving.external
      rw [ConnectAsyncData.onConnectAddr, if_pos (compared.mpr right), external]
    obtain ⟨e₁, more, completed⟩ :=
      admitted_leads memory address stored output (rest.drop (n + 2))
    rw [← made] at more
    exact ⟨e₁, leads.trans more, fullOver_of_completed completed,
      .succeeds completed ⟨there, right⟩⟩
  · have refused : stored.onConnectAddr = stored.completeAsyncFromError
        (.s5b .notAllowed "The client gave an invalid hostname") := by
      rw [ConnectAsyncData.onConnectAddr, if_neg (fun same => right (compared.mp same))]
    have completed : stored.onConnectAddr.next = .completed (.error invalidHostname) := by
      rw [refused]
      rfl
    exact allEnd_refused leads completed (fun taken => right taken.2)

/-- The bytes start with the length of the address, the address and a port. -/
def Addresses (bytes addr : List UInt8) : Prop :=
  addr.length ≤ SOCKS5_MAX_LEN
  ∧ ∃ port rest, port.length = 2 ∧ bytes = UInt8.ofNat addr.length :: (addr ++ port ++ rest)

theorem not_addresses_nil (addr : List UInt8) : ¬Addresses [] addr := by
  rintro ⟨_, _, _, _, bytes⟩
  cases bytes

theorem addresses_cons {byte : UInt8} {bytes addr : List UInt8}
    : Addresses (byte :: bytes) addr
      ↔ byte.toNat + 2 ≤ bytes.length ∧ addr = bytes.take byte.toNat := by
  constructor
  · rintro ⟨short, port, rest, two, is⟩
    obtain ⟨rfl, rfl⟩ := List.cons.inj is
    have length : (UInt8.ofNat addr.length).toNat = addr.length :=
      UInt8.toNat_ofNat_of_lt' (Nat.lt_succ_of_le short)
    rw [length, List.append_assoc, List.take_left]
    refine ⟨?_, rfl⟩
    simp only [List.length_append, two]
    omega
  · rintro ⟨there, rfl⟩
    have length : (bytes.take byte.toNat).length = byte.toNat :=
      List.length_take_of_le (Nat.le_trans (Nat.le_add_right _ 2) there)
    refine ⟨?_, (bytes.drop byte.toNat).take 2, (bytes.drop byte.toNat).drop 2, ?_, ?_⟩
    · rw [length]
      exact Nat.le_of_lt_succ byte.toNat_lt
    · rw [List.length_take, List.length_drop]
      omega
    · rw [length, UInt8.ofNat_toNat, List.append_assoc, List.take_append_drop,
        List.take_append_drop]

/-- The server reads the length of an address. -/
theorem length_ends (memory : Uninitialised) {data : ConnectAsyncData}
    (serving : Serving allowed address data) (output input : List UInt8)
    : AllEnd memory { negotiation := data.refill 1 .connectAddrLen, output, input }
        (∃ addr, Addresses input addr ∧ addr.takeWhile (· != 0) = allowed.bytes) := by
  cases input with
  | nil =>
      refine allEnd_starved rfl (Nat.zero_lt_one) ?_
      rintro ⟨addr, missing, _⟩
      exact not_addresses_nil addr missing
  | cons byte rest =>
      have room : 0 < data.buffer.length := by
        rw [serving.size]
        decide
      let e : Endpoint :=
        { negotiation := data.refill 1 .connectAddrLen, output, input := byte :: rest }
      have leads : FullLeads memory e (e.fill memory) := fullLeads_fill rfl (Nat.le_add_left 1 _)
      rw [fill_addrLen (Or.inl rfl) room] at leads
      have size : (byte :: data.buffer.drop 1).length = SOCKS5_CONN_MSG_LEN := by
        rw [List.length_cons, List.length_drop, serving.size]
        decide
      have kept : Serving allowed address { data with buffer := byte :: data.buffer.drop 1 } :=
        ⟨serving.host, serving.external, size⟩
      refine AllEnd.after leads ?_
        (address_ends memory kept (Nat.le_of_lt_succ byte.toNat_lt) output rest)
      simp only [addresses_cons]
      constructor
      · rintro ⟨there, same⟩
        exact ⟨_, ⟨there, rfl⟩, same⟩
      · rintro ⟨_, ⟨there, rfl⟩, same⟩
        exact ⟨there, same⟩

/-- A header of version 5 with a domain name is taken, whatever its command. -/
theorem onConnectMsg_cases (data : ConnectAsyncData)
    : (byteAt data.buffer 0 = SOCKS5_VERSION ∧ byteAt data.buffer 3 = SOCKS5_ATYP_DOMAINNAME)
        ∧ data.onConnectMsg = data.refill 1 .connectAddrLen
      ∨ ¬(byteAt data.buffer 0 = SOCKS5_VERSION
            ∧ byteAt data.buffer 3 = SOCKS5_ATYP_DOMAINNAME)
        ∧ ∃ error, data.onConnectMsg.next = .completed (.error error) := by
  unfold ConnectAsyncData.onConnectMsg
  by_cases version : byteAt data.buffer 0 = SOCKS5_VERSION
  · by_cases domain : byteAt data.buffer 3 = SOCKS5_ATYP_DOMAINNAME
    · refine Or.inl ⟨⟨version, domain⟩, ?_⟩
      rw [serverParseConnectMsg, if_neg (not_not_intro version)]
      dsimp only
      rw [if_pos (Or.inr (Or.inl domain))]
      exact if_pos domain
    · refine Or.inr ⟨fun both => domain both.2, ?_⟩
      rw [serverParseConnectMsg, if_neg (not_not_intro version)]
      dsimp only
      split
      · exact ⟨_, rfl⟩
      · rename_i taken
        split at taken <;> cases taken
        rw [if_neg domain]
        exact ⟨_, rfl⟩
  · refine Or.inr ⟨fun both => version both.1, ?_⟩
    rw [serverParseConnectMsg, if_pos version]
    exact ⟨_, rfl⟩

theorem namesHost_cons {version command rsv atype cmd : UInt8} {tail addr : List UInt8}
    : NamesHost (version :: command :: rsv :: atype :: tail) cmd addr
      ↔ (version = SOCKS5_VERSION ∧ atype = SOCKS5_ATYP_DOMAINNAME)
        ∧ cmd = command ∧ Addresses tail addr := by
  constructor
  · rintro ⟨short, rsv', port, rest, two, is⟩
    cases is
    exact ⟨⟨rfl, rfl⟩, rfl, short, port, rest, two, rfl⟩
  · rintro ⟨⟨rfl, rfl⟩, rfl, short, port, rest, two, rfl⟩
    exact ⟨short, rsv, port, rest, two, rfl⟩

/-- Bytes that the server takes for a request for the allowed host: it compares the address up to
its first NUL, and does not look at the command.
-/
def TakenFor (allowed : CString) (input : List UInt8) : Prop :=
  ∃ cmd addr, NamesHost input cmd addr ∧ addr.takeWhile (· != 0) = allowed.bytes

theorem takenFor_cons {version command rsv atype : UInt8} {tail : List UInt8}
    : TakenFor allowed (version :: command :: rsv :: atype :: tail)
      ↔ (version = SOCKS5_VERSION ∧ atype = SOCKS5_ATYP_DOMAINNAME)
        ∧ ∃ addr, Addresses tail addr ∧ addr.takeWhile (· != 0) = allowed.bytes := by
  constructor
  · rintro ⟨cmd, addr, names, same⟩
    obtain ⟨header, _, field⟩ := namesHost_cons.mp names
    exact ⟨header, addr, field, same⟩
  · rintro ⟨header, addr, field, same⟩
    exact ⟨command, addr, namesHost_cons.mpr ⟨header, rfl, field⟩, same⟩

theorem takenFor_length (taken : TakenFor allowed input) : 4 ≤ input.length := by
  obtain ⟨cmd, addr, names, _⟩ := taken
  obtain ⟨rsv, port, rest, _, rfl⟩ := names.request
  simp

/-- How the runs of a server end that waits for the request. -/
theorem requesting_ends (memory : Uninitialised) (allowed : CString)
    (address : GInetSocketAddress) (input : List UInt8)
    : AllEnd memory (requesting allowed address input) (TakenFor allowed input) := by
  let e := requesting allowed address input
  rcases Nat.lt_or_ge input.length 4 with missing | there
  · refine allEnd_starved (e := e) rfl missing (fun taken => ?_)
    exact absurd (takenFor_length taken) (Nat.not_le.mpr missing)
  obtain ⟨version, command, rsv, atype, tail, rfl⟩ :
      ∃ version command rsv atype tail, input = version :: command :: rsv :: atype :: tail := by
    match input, there with
    | version :: command :: rsv :: atype :: tail, _ => exact ⟨_, _, _, _, _, rfl⟩
  have counted : Counted e .connectMsg := ⟨rfl, rfl, Nat.succ_pos 3⟩
  have size : e.negotiation.data.buffer.length = SOCKS5_CONN_MSG_LEN := List.length_replicate
  have few : 4 ≤ SOCKS5_CONN_MSG_LEN := by decide
  have room : e.negotiation.data.length ≤ e.negotiation.data.buffer.length := size ▸ few
  have leads : FullLeads memory e (e.fill memory) := fullLeads_fill rfl there
  rw [counted.fill_eq there room] at leads
  let stored := e.negotiation.data.received [version, command, rsv, atype]
  have serving : Serving allowed address stored := by
    refine ⟨rfl, rfl, ?_⟩
    rw [ConnectAsyncData.length_received (size.symm ▸ few), size]
  rcases onConnectMsg_cases stored with ⟨header, goes⟩ | ⟨other, error, completed⟩
  · have goesOn : ReadCallback.connectMsg.done memory stored = stored.refill 1 .connectAddrLen :=
      goes
    change FullLeads memory e ⟨ReadCallback.connectMsg.done memory stored, _, tail⟩ at leads
    rw [goesOn] at leads
    refine AllEnd.after leads ?_ (length_ends memory serving _ tail)
    rw [takenFor_cons]
    exact (and_iff_right header).symm
  · exact allEnd_refused leads completed (fun taken => other (takenFor_cons.mp taken).1)

-----------------------------------------------------------------------------------------
-- The request of the allowed host
-----------------------------------------------------------------------------------------

/-- The bytes name at most one host. -/
theorem NamesHost.unique {cmd cmd' : UInt8} {addr addr' : List UInt8}
    (names : NamesHost input cmd addr) (other : NamesHost input cmd' addr')
    : cmd = cmd' ∧ addr = addr' := by
  obtain ⟨short, rsv, port, rest, two, rfl⟩ := names
  obtain ⟨_, rfl, field⟩ := namesHost_cons.mp other
  have same : Addresses (UInt8.ofNat addr.length :: (addr ++ port ++ rest)) addr :=
    ⟨short, port, rest, two, rfl⟩
  rw [(addresses_cons.mp same).2]
  exact ⟨rfl, (addresses_cons.mp field).2.symm⟩

theorem takeWhile_nulFree (str : CString) : str.bytes.takeWhile (· != 0) = str.bytes := by
  rw [List.takeWhile_eq_self_iff]
  intro byte there
  have other : byte ≠ 0 := fun zero => str.nulFree (zero ▸ there)
  exact bne_iff_ne.mpr other

theorem RequestFor.takenFor (request : RequestFor allowed input) : TakenFor allowed input :=
  ⟨_, _, request, takeWhile_nulFree allowed⟩

/-- The request that is taken is the right one, unless it has another command or an address with
a NUL.
-/
theorem requestFor_iff {cmd : UInt8} {addr : List UInt8} (names : NamesHost input cmd addr)
    (same : addr.takeWhile (· != 0) = allowed.bytes)
    : RequestFor allowed input ↔ ¬(cmd ≠ SOCKS5_CMD_CONNECT ∨ 0 ∈ addr) := by
  constructor
  · intro request
    obtain ⟨rfl, rfl⟩ := names.unique request
    simp [allowed.nulFree]
  · simp only [not_or, ne_eq, Classical.not_not]
    rintro ⟨rfl, nulFree⟩
    have whole : addr.takeWhile (· != 0) = addr := takeWhile_nulFree ⟨addr, nulFree⟩
    rw [RequestFor, ← same, whole]
    exact names

/-- The server admits a client rightly unless the request for the allowed host has another command
than CONNECT, or an address that goes on after a NUL.
-/
theorem request_admission (memory : Uninitialised) (allowed : CString)
    (address : GInetSocketAddress) (input : List UInt8)
    : AdmitsRightly memory allowed address input
      ↔ ¬∃ cmd addr, NamesHost input cmd addr
          ∧ addr.takeWhile (· != 0) = allowed.bytes
          ∧ (cmd ≠ SOCKS5_CMD_CONNECT ∨ 0 ∈ addr) := by
  obtain ⟨e₁, leads, stopped, how⟩ := requesting_ends memory allowed address input
  have atEnd : AdmitsRightly memory allowed address input
      ↔ (e₁.negotiation.next.isReading = false →
        (e₁.negotiation.next = .completed .success ↔ RequestFor allowed input)
        ∧ (¬RequestFor allowed input →
          ∃ error, e₁.negotiation.next = .completed (.error error))) := by
    constructor
    · intro admits
      exact admits e₁ leads.runs stopped
    · intro admits e' run stopped'
      rw [stopped.runs_eq (leads.through e' run stopped')]
      exact admits
  rw [atEnd]
  cases how with
  | waits reading other =>
      rw [reading]
      refine iff_of_true (fun completes => Bool.noConfusion completes) ?_
      rintro ⟨cmd, addr, names, same, _⟩
      exact other ⟨cmd, addr, names, same⟩
  | fails error completed other =>
      have wrong : ¬RequestFor allowed input := fun request => other request.takenFor
      refine iff_of_true (fun _ => ⟨?_, fun _ => ⟨error, completed⟩⟩) ?_
      · rw [completed]
        exact iff_of_false (by simp) wrong
      · rintro ⟨cmd, addr, names, same, _⟩
        exact other ⟨cmd, addr, names, same⟩
  | succeeds completed took =>
      obtain ⟨cmd, addr, names, same⟩ := took
      have right := requestFor_iff names same
      simp only [completed, Next.isReading, true_implies, true_iff]
      constructor
      · rintro ⟨request, _⟩ ⟨cmd', addr', names', _, deviates⟩
        obtain ⟨rfl, rfl⟩ := names.unique names'
        exact right.mp request deviates
      · intro clean
        have request : RequestFor allowed input :=
          right.mpr (fun deviates => clean ⟨cmd, addr, names, same, deviates⟩)
        exact ⟨request, fun wrong => absurd request wrong⟩

/-- A request of the command BIND for the host a. -/
def bindRequest : List UInt8 := [5, 2, 0, 3, 1, 97, 0, 0]

theorem bind_request_admitted
    : ¬∀ memory allowed address input, AdmitsRightly memory allowed address input := by
  intro claimed
  have names : NamesHost bindRequest 2 [97] := ⟨by decide, 0, [0, 0], [], rfl, rfl⟩
  have same : [97].takeWhile (· != 0) = hostA.bytes := rfl
  obtain ⟨e₁, leads, stopped, how⟩ := requesting_ends .null hostA anyAddress bindRequest
  cases how with
  | waits _ other => exact other ⟨2, [97], names, same⟩
  | fails _ _ other => exact other ⟨2, [97], names, same⟩
  | succeeds completed =>
      have admits := claimed .null hostA anyAddress bindRequest e₁ leads.runs stopped
        (by rw [completed]; rfl)
      have request : RequestFor hostA bindRequest := admits.1.mp completed
      exact (requestFor_iff names same).mp request (Or.inl (by decide))

end McabberJingle.Socks5
