import McabberJingle.Guarantees.Buffers
import McabberJingle.Socks5.Streams

/-! How the bytes of the other side are cut into pieces makes a difference to the SOCKS5
negotiation. A server may read more than its first buffer holds, and the address in a reply to
our client is read on with the wrong callback after a short read.
-/

namespace McabberJingle.Socks5

open Endpoint Relation

variable {memory : Uninitialised}

-----------------------------------------------------------------------------------------
-- Cutting makes no difference
-----------------------------------------------------------------------------------------

/-- All runs from here to the end show the same replies, the same completion and the same
unread bytes, and each has a meaning.
-/
def CutFreeFrom (memory : Uninitialised) (e : Endpoint) : Prop :=
  ∀ e₁ e₂, Runs memory e e₁ → Over memory e₁ → Runs memory e e₂ → Over memory e₂ →
    e₁.observed = e₂.observed ∧ e₁.observed.isSome = true

/-- The negotiation with another side that sends these bytes. -/
def CutFree (memory : Uninitialised) (start : Negotiation) (received : List UInt8) : Prop :=
  CutFreeFrom memory { negotiation := start, output := [], input := received }

section CutFreeFrom

variable {e e₁ e₂ : Endpoint}

theorem cutFreeFrom_of_observed {o : Observation}
    (same : ∀ e', Runs memory e e' → Over memory e' → e'.observed = some o)
    : CutFreeFrom memory e := by
  intro e₁ e₂ run₁ stopped₁ run₂ stopped₂
  rw [same e₁ run₁ stopped₁, same e₂ run₂ stopped₂]
  exact ⟨rfl, rfl⟩

/-- Every run from `e` to the end passes through `e₁`. -/
structure Leads (memory : Uninitialised) (e e₁ : Endpoint) : Prop where
  runs : Runs memory e e₁
  through : ∀ e', Runs memory e e' → Over memory e' → Runs memory e₁ e'

theorem Leads.cutFree_iff (leads : Leads memory e e₁)
    : CutFreeFrom memory e ↔ CutFreeFrom memory e₁ := by
  constructor
  · intro same a b run₁ stopped₁ run₂ stopped₂
    exact same a b (leads.runs.trans run₁) stopped₁ (leads.runs.trans run₂) stopped₂
  · intro same a b run₁ stopped₁ run₂ stopped₂
    exact same a b (leads.through a run₁ stopped₁) stopped₁ (leads.through b run₂ stopped₂) stopped₂

theorem leads_flush {callback : WriteCallback} (writing : e.negotiation.next = .writing callback)
    (some : 0 < e.negotiation.wanted)
    : Leads memory e (e.flush memory) where
  runs := runs_flush (by rw [writing]; rfl) some
  through _ run stopped := through_flush writing some run stopped

theorem leads_fill {callback : ReadCallback} (counted : Counted e callback)
    (exact : callback.again = callback) (there : e.negotiation.wanted ≤ e.input.length)
    (room : e.negotiation.data.length ≤ e.negotiation.data.buffer.length)
    : Leads memory e (e.fill memory) where
  runs := runs_fill counted.isReading counted.wanted_pos there
  through _ run stopped := through_fill counted exact there room run stopped

theorem leads_byte (reading : e.negotiation.next.isReading = true)
    (single : e.negotiation.wanted = 1) (there : e.input ≠ [])
    : Leads memory e (e.fill memory) where
  runs := by
    refine runs_fill reading (by rw [single]; decide) ?_
    rw [single]
    exact List.length_pos_iff.mpr there
  through _ run stopped := through_byte reading single there run stopped

theorem over_of_completed {completion : Completion}
    (completed : e.negotiation.next = .completed completion)
    : Over memory e :=
  over_of_ended (by rw [completed]; rfl) (by rw [completed]; rfl)

theorem observed_completed {completion : Completion}
    (completed : e.negotiation.next = .completed completion)
    : e.observed
      = some { replies := e.output, completion := some completion, unread := e.input } := by
  rw [observed, completed]

/-- A negotiation that has completed. -/
theorem cutFreeFrom_completed {completion : Completion}
    (completed : e.negotiation.next = .completed completion)
    : CutFreeFrom memory e := by
  refine cutFreeFrom_of_observed (o := ⟨e.output, some completion, e.input⟩)
    (fun e' run stopped => ?_)
  have ended : Over memory e := over_of_completed completed
  rw [ended.runs_eq run, observed_completed completed]

theorem not_cutFreeFrom_undefined {what : Undefined}
    (undefined : e₁.negotiation.next = .undefined what)
    (run : Runs memory e e₁)
    : ¬CutFreeFrom memory e := by
  intro same
  have ended : Over memory e₁ :=
    over_of_ended (by rw [undefined]; rfl) (by rw [undefined]; rfl)
  have seen := (same e₁ e₁ run ended run ended).2
  rw [observed, undefined] at seen
  cases seen

/-- A negotiation that waits for bytes that do not come. -/
theorem cutFreeFrom_waiting (reading : e.negotiation.next.isReading = true)
    (nothing : e.input = [])
    : CutFreeFrom memory e := by
  refine cutFreeFrom_of_observed (fun e' run stopped => ?_) (o := ⟨e.output, none, e.input⟩)
  rw [(over_of_starved reading nothing).runs_eq run]
  unfold observed
  cases next : e.negotiation.next with
  | reading callback => rfl
  | writing callback => rfl
  | completed completion => simp [next, Next.isReading] at reading
  | undefined what => simp [next, Next.isReading] at reading

theorem cutFreeFrom_starved {callback : ReadCallback} (counted : Counted e callback)
    (little : e.input.length < e.negotiation.wanted)
    (room : e.negotiation.data.offset + e.input.length ≤ e.negotiation.data.buffer.length)
    : CutFreeFrom memory e :=
  cutFreeFrom_of_observed (fun _ run stopped => starves counted little room run stopped)

/-- A run that goes on reading ends with fewer bytes unread. -/
theorem reads_on (reading : e.negotiation.next.isReading = true) (run : Runs memory e e₁)
    : e₁ = e ∨ e₁.input.length < e.input.length := by
  cases run.cases_head with
  | inl same => exact Or.inl same.symm
  | inr first =>
      obtain ⟨next, step, rest⟩ := first
      refine Or.inr (Nat.lt_of_le_of_lt (Runs.input_le rest) ?_)
      cases step with
      | wrote count isWriting =>
          cases is : e.negotiation.next <;>
            simp [is, Next.isReading, Next.isWriting] at reading isWriting
      | read count isReading some fits there =>
          simp only [Endpoint.read, List.length_drop]
          omega

end CutFreeFrom

-----------------------------------------------------------------------------------------
-- The address in a reply
-----------------------------------------------------------------------------------------

/-- The error of a wrong host name. -/
def invalidHostname : Error := .s5b .notAllowed "The client gave an invalid hostname"

/-- No reply is refused with that error. -/
theorem clientParseConnectReply_error {buffer : List UInt8} {error : Error}
    (refused : clientParseConnectReply buffer = .error error)
    : error ≠ invalidHostname := by
  have texts (rep : UInt8) : replyError rep ≠ invalidHostname := by
    unfold replyError
    repeat' split
    all_goals decide
  unfold clientParseConnectReply at refused
  repeat' split at refused
  all_goals cases refused
  all_goals first | decide | exact texts _

/-- What the header of a reply leads to: an error, or a read of the address. -/
theorem onConnectReply_cases (data : ConnectAsyncData)
    : (∃ error, error ≠ invalidHostname ∧ data.onConnectReply.next = .completed (.error error))
      ∨ data.onConnectReply.next.isReading = true := by
  unfold ConnectAsyncData.onConnectReply
  cases parsed : clientParseConnectReply data.buffer with
  | error error => exact Or.inl ⟨error, clientParseConnectReply_error parsed, rfl⟩
  | ok atype =>
      refine Or.inr ?_
      dsimp only
      split
      · rfl
      · split <;> rfl

/-- An address that was read at once ends the negotiation of a client. -/
theorem address_cases {callback : ReadCallback}
    (address : callback = .connectAddr ∨ callback = .connectReplyAddr) {data : ConnectAsyncData}
    (client : data.externalAddress = none)
    : (∃ completion, (completion = .success ∨ completion = .error invalidHostname)
        ∧ (callback.done memory data).next = .completed completion)
      ∨ ∃ what, (callback.done memory data).next = .undefined what := by
  rcases address with rfl | rfl
  · simp only [ReadCallback.done, ConnectAsyncData.onConnectAddr]
    split
    · rw [client]
      exact Or.inr ⟨_, rfl⟩
    · exact Or.inl ⟨_, Or.inr rfl, rfl⟩
  · exact Or.inl ⟨_, Or.inl rfl, rfl⟩

variable {e : Endpoint}

/-- What is observed is what was left unread. -/
theorem observed_unread {o : Observation} (seen : e.observed = some o) : o.unread = e.input := by
  unfold observed at seen
  split at seen <;> cases seen <;> rfl

theorem observed_completion {o : Observation} (seen : e.observed = some o)
    (reading : e.negotiation.next.isReading = true)
    : o.completion = none := by
  unfold observed at seen
  split at seen
  · cases seen
  · rename_i completion completed
    rw [completed] at reading
    cases reading
  · cases seen
    rfl
  · cases seen
    rfl

/-- A client is about to read an address of `n` bytes into the buffer of a reply. -/
structure AtAddress (e : Endpoint) (callback : ReadCallback) (n : Nat) : Prop where
  reading : e.negotiation.next = .reading callback
  address : callback = .connectAddr ∨ callback = .connectReplyAddr
  client : e.negotiation.data.externalAddress = none
  offset : e.negotiation.data.offset = 0
  length : e.negotiation.data.length = n
  long : 2 ≤ n
  size : e.negotiation.data.buffer.length = SOCKS5_CONN_REP_LEN

section Address

variable {callback : ReadCallback} {n : Nat}

theorem AtAddress.counted (field : AtAddress e callback n) : Counted e callback where
  reading := field.reading
  counts := by rcases field.address with rfl | rfl <;> rfl
  offset := by
    rw [field.offset, field.length]
    exact Nat.lt_of_lt_of_le (by decide) field.long

theorem AtAddress.again (field : AtAddress e callback n) : callback.again = .connectReply := by
  rcases field.address with rfl | rfl <;> rfl

theorem AtAddress.wanted (field : AtAddress e callback n) : e.negotiation.wanted = n := by
  rw [Negotiation.wanted, field.offset, field.length, Nat.sub_zero]

/-- After one byte of the address, the rest is taken for the header of another reply. -/
theorem AtAddress.cut (memory : Uninitialised) (field : AtAddress e callback n)
    (whole : n ≤ e.input.length) (room : n ≤ SOCKS5_CONN_REP_LEN)
    : ∃ data : ConnectAsyncData, Runs memory e
        { negotiation := data.onConnectReply, output := e.output, input := e.input.drop n } := by
  have long := field.long
  have short : 1 < e.negotiation.wanted := by
    rw [field.wanted]
    exact long
  have within : 1 ≤ e.input.length := by omega
  have fits : e.negotiation.data.offset + 1 ≤ e.negotiation.data.buffer.length := by
    rw [field.offset, field.size]
    decide
  obtain ⟨counted, data, offset⟩ := field.counted.short memory within short fits
  rw [field.again] at counted
  have length : (e.read memory 1).negotiation.data.length = n := by
    rw [data]
    exact field.length
  have wanted : (e.read memory 1).negotiation.wanted = n - 1 := by
    rw [Negotiation.wanted, offset, length, field.offset]
  have left : (e.read memory 1).input = e.input.drop 1 := rfl
  have there : (e.read memory 1).negotiation.wanted ≤ (e.read memory 1).input.length := by
    rw [wanted, left, List.length_drop]
    omega
  have size : (e.read memory 1).negotiation.data.buffer.length = SOCKS5_CONN_REP_LEN := by
    rw [data, ConnectAsyncData.length_received, field.size]
    rw [List.length_take_of_le within]
    exact fits
  have rest : Runs memory (e.read memory 1) ((e.read memory 1).fill memory) :=
    runs_fill counted.isReading counted.wanted_pos there
  rw [counted.fill_eq there (by rw [length, size]; exact room), wanted, left, List.drop_drop,
    Nat.add_sub_cancel' (by omega)] at rest
  have first : Step memory e (e.read memory 1) :=
    .read 1 field.counted.isReading (by decide) (Nat.le_of_lt short) within
  exact ⟨_, ReflTransGen.head first rest⟩

/-- A whole address arrives: read at once it completes the negotiation, and after a short read
its bytes are taken for the header of another reply.
-/
theorem AtAddress.not_cutFreeFrom (field : AtAddress e callback n) (whole : n ≤ e.input.length)
    (room : n ≤ SOCKS5_CONN_REP_LEN)
    : ¬CutFreeFrom memory e := by
  intro same
  have there : e.negotiation.wanted ≤ e.input.length := field.wanted ▸ whole
  have fits : e.negotiation.data.length ≤ e.negotiation.data.buffer.length := by
    rw [field.length, field.size]
    exact room
  have atOnce : Runs memory e (e.fill memory) :=
    runs_fill field.counted.isReading field.counted.wanted_pos there
  rw [field.counted.fill_eq there fits, field.wanted] at atOnce
  let e₁ : Endpoint := {
    negotiation := callback.done memory (e.negotiation.data.received (e.input.take n))
    output := e.output, input := e.input.drop n }
  obtain ⟨data, cut⟩ := field.cut memory whole room
  let e₂ : Endpoint :=
    { negotiation := data.onConnectReply, output := e.output, input := e.input.drop n }
  obtain ⟨e₃, run, stopped⟩ := exists_over memory e₂
  have ends : (∃ completion, (completion = .success ∨ completion = .error invalidHostname)
      ∧ e₁.negotiation.next = .completed completion)
      ∨ ∃ what, e₁.negotiation.next = .undefined what :=
    address_cases field.address field.client
  rcases ends with ⟨completion, is, completed⟩ | ⟨what, undefined⟩
  · obtain ⟨seen, _⟩ := same e₁ e₃ atOnce (over_of_completed completed) (cut.trans run) stopped
    rw [observed_completed completed] at seen
    rcases onConnectReply_cases data with ⟨error, other, refused⟩ | reading
    · have refused₂ : e₂.negotiation.next = .completed (.error error) := refused
      have ended : Over memory e₂ := over_of_completed refused₂
      rw [ended.runs_eq run, observed_completed refused₂] at seen
      have agree := congrArg Observation.completion (Option.some.inj seen)
      rcases is with rfl | rfl
      · cases agree
      · exact other (Completion.error.inj (Option.some.inj agree)).symm
    · rcases reads_on reading run with stays | less
      · rw [stays] at seen
        cases observed_completion seen.symm reading
      · rw [← observed_unread seen.symm] at less
        exact absurd less (Nat.lt_irrefl _)
  · exact not_cutFreeFrom_undefined undefined atOnce same

/-- The address of a reply can be cut exactly when it does not arrive. -/
theorem AtAddress.cutFreeFrom_iff (field : AtAddress e callback n)
    : CutFreeFrom memory e ↔ e.input.length < min n (SOCKS5_CONN_REP_LEN + 1) := by
  constructor
  · intro same
    rcases Nat.lt_or_ge e.input.length (min n (SOCKS5_CONN_REP_LEN + 1)) with little | enough
    · exact little
    exfalso
    rcases Nat.lt_or_ge SOCKS5_CONN_REP_LEN n with overlong | room
    · have there : SOCKS5_CONN_REP_LEN + 1 ≤ e.input.length := by omega
      have overruns : (e.read memory (SOCKS5_CONN_REP_LEN + 1)).negotiation.next
          = .undefined .outOfBounds := by
        have piece : (e.input.take (SOCKS5_CONN_REP_LEN + 1)).length = SOCKS5_CONN_REP_LEN + 1 :=
          List.length_take_of_le there
        simp only [Endpoint.read, Negotiation.ends, field.reading, ConnectAsyncData.store, piece,
          field.offset, field.size]
        rw [if_neg (by omega)]
      refine not_cutFreeFrom_undefined overruns (.single (.read _ ?_ (by omega) ?_ there)) same
      · exact field.counted.isReading
      · rw [field.wanted]
        exact overlong
    · have whole : n ≤ e.input.length := by omega
      exact field.not_cutFreeFrom whole room same
  · intro little
    rw [Nat.lt_min] at little
    refine cutFreeFrom_starved field.counted (field.wanted ▸ little.1) ?_
    rw [field.offset, field.size, Nat.zero_add]
    exact Nat.le_of_lt_succ little.2

end Address

/-- The length byte of an address leads to a read of the address and the port. -/
theorem fill_addrLen {callback : ReadCallback}
    (length : callback = .connectAddrLen ∨ callback = .connectReplyAddrLen)
    {data : ConnectAsyncData} (room : 0 < data.buffer.length) (byte : UInt8)
    (output rest : List UInt8)
    : ({ negotiation := data.refill 1 callback, output, input := byte :: rest }
        : Endpoint).fill memory
      = { negotiation :=
            { data with buffer := byte :: data.buffer.drop 1 }.refill (byte.toNat + 2)
              .connectAddr
          output, input := rest } := by
  let e : Endpoint := { negotiation := data.refill 1 callback, output, input := byte :: rest }
  have ends : e.negotiation.ends memory (.read [byte])
      = callback.run memory (e.negotiation.data.kept [byte]) 1 :=
    Negotiation.ends_read memory rfl [byte] room
  change ({ negotiation := e.negotiation.ends memory (.read [byte]), output, input := rest }
    : Endpoint) = _
  rw [ends]
  rcases length with rfl | rfl <;> rfl

-----------------------------------------------------------------------------------------
-- The client
-----------------------------------------------------------------------------------------

/-- The address is not there: 6 or 18 bytes, or a length byte and as many bytes and two more.
A read of more than 255 bytes overruns the buffer.
-/
def AddressMissing (atype : UInt8) (received : List UInt8) : Prop :=
  if atype = SOCKS5_ATYP_IPV4 then
    received.length < 6
  else if atype = SOCKS5_ATYP_IPV6 then
    received.length < 18
  else
    received = [] ∨ received.tail.length
      < min ((byteAt received 0).toNat + 2) (SOCKS5_CONN_REP_LEN + 1)

/-- The header of the reply is not there or is refused, or the address is not there. -/
def ReplyUnaffected (received : List UInt8) : Prop :=
  received.length < 4
  ∨ match clientParseConnectReply received with
    | .error _ => True
    | .ok atype => AddressMissing atype (received.drop 4)

/-- How the bytes that a client receives are cut makes no difference. -/
def ClientUnaffected (memory : Uninitialised) (hostname : CString) (received : List UInt8)
    : Prop :=
  received.length < 2
  ∨ match clientParseNegoReply received false with
    | .error _ => memory = .null
    | .ok _ => SOCKS5_MAX_LEN < hostname.strlen ∨ ReplyUnaffected (received.drop 2)

/-- The data of a client with a buffer of zeros, of which `length` bytes are to be filled. -/
def clientAt (hostname : CString) (size length : Nat) : ConnectAsyncData where
  externalAddress := none
  hostname := hostname
  username := none
  password := none
  buffer := List.replicate size 0
  length := length
  offset := 0

/-- The bytes that were read first are at the start of the buffer. -/
theorem byteAt_received {data : ConnectAsyncData} (start : data.offset = 0)
    {received : List UInt8} {n i : Nat} (there : n ≤ received.length) (below : i < n)
    : byteAt (data.received (received.take n)).buffer i = byteAt received i := by
  have piece : (received.take n).length = n := List.length_take_of_le there
  simp only [byteAt, ConnectAsyncData.received, ConnectAsyncData.kept, start, List.take_zero,
    List.nil_append, List.getD_eq_getElem?_getD]
  rw [List.getElem?_append_left (by rw [piece]; exact below), List.getElem?_take_of_lt below]

/-- The parsers look at the first bytes only. -/
theorem clientParseNegoReply_congr {a b : List UInt8} (same : ∀ i < 2, byteAt a i = byteAt b i)
    (hasAuth : Bool)
    : clientParseNegoReply a hasAuth = clientParseNegoReply b hasAuth := by
  simp only [clientParseNegoReply, same 0 (by decide), same 1 (by decide)]

theorem clientParseConnectReply_congr {a b : List UInt8}
    (same : ∀ i < 4, byteAt a i = byteAt b i)
    : clientParseConnectReply a = clientParseConnectReply b := by
  simp only [clientParseConnectReply, same 0 (by decide), same 1 (by decide), same 2 (by decide),
    same 3 (by decide)]

/-- A client without a user asks for no authentication. -/
theorem clientParseNegoReply_noAuth {received : List UInt8} {mustAuth : Bool}
    (parsed : clientParseNegoReply received false = .ok mustAuth)
    : mustAuth = false := by
  unfold clientParseNegoReply at parsed
  split at parsed
  · cases parsed
  split at parsed
  · cases parsed
    rfl
  split at parsed
  · cases parsed
  · cases parsed

section Client

variable {hostname : CString}

/-- The client has written its greeting. -/
theorem client_greets (hostname : CString) (received : List UInt8)
    : Leads memory { negotiation := socks5ClientNego hostname, output := [], input := received }
        { negotiation := (clientAt hostname 2 2).doRead .negoReply
          output := clientSetNegoMsg false, input := received } :=
  leads_flush rfl (Nat.succ_pos 2)

/-- The client has written its request. -/
theorem client_requests {data : ConnectAsyncData} {msg output received : List UInt8}
    (built : clientSetConnectMsg data.hostname S5B_DST_PORT = .ok msg)
    : Leads memory
        { negotiation := data.build SOCKS5_CONN_MSG_LEN msg .connectMsg, output, input := received }
        { negotiation :=
            { data with
              buffer := List.replicate SOCKS5_CONN_REP_LEN 0, length := 4, offset := 0
            }.doRead .connectReply
          output := output ++ msg, input := received } := by
  rw [build_eq (clientSetConnectMsg_length built)]
  have some : 0 < msg.length := by
    unfold clientSetConnectMsg at built
    split at built
    · cases built
    · cases built
      simp
  let e : Endpoint := {
    negotiation := ConnectAsyncData.doWrite .connectMsg { data with
      buffer := msg ++ List.replicate (SOCKS5_CONN_MSG_LEN - msg.length) 0
      length := msg.length
      offset := 0 }
    output, input := received }
  have leads : Leads memory e (e.flush memory) := leads_flush rfl some
  rw [flush_eq rfl (Nat.zero_le _)] at leads
  simpa [e, ConnectAsyncData.doWrite, Negotiation.wanted, WriteCallback.done,
    ConnectAsyncData.expect] using leads

/-- The client has read the header of the reply and reads the address. -/
theorem client_address_iff {data : ConnectAsyncData} {output received : List UInt8} {atype : UInt8}
    (client : data.externalAddress = none) (size : data.buffer.length = SOCKS5_CONN_REP_LEN)
    (parsed : clientParseConnectReply data.buffer = .ok atype)
    : CutFreeFrom memory { negotiation := data.onConnectReply, output, input := received }
      ↔ AddressMissing atype received := by
  unfold ConnectAsyncData.onConnectReply AddressMissing
  rw [parsed]
  dsimp only
  by_cases ipv4 : atype = SOCKS5_ATYP_IPV4
  · rw [if_pos ipv4, if_pos ipv4]
    have field : AtAddress ⟨data.refill 6 .connectReplyAddr, output, received⟩
        .connectReplyAddr 6 :=
      ⟨rfl, Or.inr rfl, client, rfl, rfl, by decide, size⟩
    exact field.cutFreeFrom_iff
  by_cases ipv6 : atype = SOCKS5_ATYP_IPV6
  · rw [if_neg ipv4, if_neg ipv4, if_pos ipv6, if_pos ipv6]
    have field : AtAddress ⟨data.refill 18 .connectReplyAddr, output, received⟩
        .connectReplyAddr 18 :=
      ⟨rfl, Or.inr rfl, client, rfl, rfl, by decide, size⟩
    exact field.cutFreeFrom_iff
  rw [if_neg ipv4, if_neg ipv4, if_neg ipv6, if_neg ipv6]
  cases received with
  | nil => exact iff_of_true (cutFreeFrom_waiting rfl rfl) (Or.inl rfl)
  | cons byte rest =>
      let e : Endpoint := ⟨data.refill 1 .connectReplyAddrLen, output, byte :: rest⟩
      have room : 0 < data.buffer.length := by
        rw [size]
        decide
      have filled : e.fill memory
          = ⟨{ data with buffer := byte :: data.buffer.drop 1 }.refill (byte.toNat + 2)
              .connectAddr, output, rest⟩ :=
        fill_addrLen (Or.inr rfl) room byte output rest
      have leads : Leads memory e (e.fill memory) := leads_byte rfl rfl (List.cons_ne_nil _ _)
      rw [leads.cutFree_iff, filled]
      have field : AtAddress ⟨{ data with buffer := byte :: data.buffer.drop 1 }.refill
            (byte.toNat + 2) .connectAddr, output, rest⟩ .connectAddr (byte.toNat + 2) := by
        refine ⟨rfl, Or.inl rfl, client, rfl, rfl, Nat.le_add_left _ _, ?_⟩
        simp only [ConnectAsyncData.refill, ConnectAsyncData.doRead, List.length_cons,
          List.length_drop, size]
        decide
      rw [field.cutFreeFrom_iff]
      simp [byteAt]

/-- The client waits for the header of the reply. -/
theorem client_header_iff {output received : List UInt8}
    : CutFreeFrom memory
        { negotiation := (clientAt hostname SOCKS5_CONN_REP_LEN 4).doRead .connectReply
          output, input := received }
      ↔ ReplyUnaffected received := by
  unfold ReplyUnaffected
  let e : Endpoint := ⟨(clientAt hostname SOCKS5_CONN_REP_LEN 4).doRead .connectReply, output,
    received⟩
  have counted : Counted e .connectReply := ⟨rfl, rfl, Nat.succ_pos 3⟩
  have size : e.negotiation.data.buffer.length = SOCKS5_CONN_REP_LEN := List.length_replicate
  rcases Nat.lt_or_ge received.length 4 with few | enough
  · refine iff_of_true (cutFreeFrom_starved counted few ?_) (Or.inl few)
    rw [size]
    change 0 + received.length ≤ SOCKS5_CONN_REP_LEN
    exact Nat.le_trans (Nat.le_of_lt (by omega : 0 + received.length < 4)) (by decide)
  · rw [or_iff_right (Nat.not_lt.mpr enough)]
    have room : e.negotiation.data.length ≤ e.negotiation.data.buffer.length := by
      rw [size]
      exact (by decide : 4 ≤ SOCKS5_CONN_REP_LEN)
    have leads : Leads memory e (e.fill memory) := leads_fill counted rfl enough room
    rw [leads.cutFree_iff, counted.fill_eq enough room]
    let data := e.negotiation.data.received (received.take 4)
    have same : clientParseConnectReply data.buffer = clientParseConnectReply received :=
      clientParseConnectReply_congr (fun i below => byteAt_received rfl enough below)
    cases parsed : clientParseConnectReply received with
    | error error =>
        have refused : data.onConnectReply.next = .completed (.error error) := by
          rw [ConnectAsyncData.onConnectReply, same, parsed]
          rfl
        exact iff_of_true (cutFreeFrom_completed refused) trivial
    | ok atype =>
        have size' : data.buffer.length = SOCKS5_CONN_REP_LEN := by
          rw [ConnectAsyncData.length_received, size]
          rw [size, List.length_take_of_le enough]
          exact (by decide : 0 + 4 ≤ SOCKS5_CONN_REP_LEN)
        exact client_address_iff rfl size' (same.trans parsed)

/-- The request is not built for a host name that is too long. -/
theorem hostname_long_iff
    : (∃ error, clientSetConnectMsg hostname S5B_DST_PORT = .error error)
      ↔ SOCKS5_MAX_LEN < hostname.strlen := by
  unfold clientSetConnectMsg
  split
  · rename_i long
    exact iff_of_true ⟨_, rfl⟩ long
  · rename_i short
    refine iff_of_false (fun built => ?_) short
    obtain ⟨error, built⟩ := built
    cases built

theorem client_cutFree_iff (received : List UInt8)
    : CutFree memory (socks5ClientNego hostname) received
      ↔ ClientUnaffected memory hostname received := by
  rw [CutFree, (client_greets hostname received).cutFree_iff, ClientUnaffected]
  let e : Endpoint :=
    ⟨(clientAt hostname 2 2).doRead .negoReply, clientSetNegoMsg false, received⟩
  have counted : Counted e .negoReply := ⟨rfl, rfl, Nat.succ_pos 1⟩
  rcases Nat.lt_or_ge received.length 2 with few | enough
  · refine iff_of_true (cutFreeFrom_starved counted few ?_) (Or.inl few)
    change 0 + received.length ≤ 2
    omega
  · rw [or_iff_right (Nat.not_lt.mpr enough)]
    have room : e.negotiation.data.length ≤ e.negotiation.data.buffer.length := Nat.le_refl 2
    have leads : Leads memory e (e.fill memory) := leads_fill counted rfl enough room
    rw [leads.cutFree_iff, counted.fill_eq enough room]
    let data := e.negotiation.data.received (received.take 2)
    have same : clientParseNegoReply data.buffer false = clientParseNegoReply received false :=
      clientParseNegoReply_congr (fun i below => byteAt_received rfl enough below) false
    have noAuth : data.hasAuth = false := rfl
    change CutFreeFrom memory ⟨data.onNegoReply memory, clientSetNegoMsg false,
      received.drop 2⟩ ↔ _
    rw [ConnectAsyncData.onNegoReply, noAuth, same]
    cases parsed : clientParseNegoReply received false with
    | error error =>
        cases memory with
        | null => exact iff_of_true (cutFreeFrom_completed rfl) rfl
        | wild => exact iff_of_false (not_cutFreeFrom_undefined rfl .refl) (by simp)
    | ok mustAuth =>
        cases clientParseNegoReply_noAuth parsed
        dsimp only
        have sent : clientSetConnectMsg data.hostname S5B_DST_PORT
            = clientSetConnectMsg hostname S5B_DST_PORT := rfl
        rw [ConnectAsyncData.sendConnectMsg, sent]
        cases built : clientSetConnectMsg hostname S5B_DST_PORT with
        | error error =>
            exact iff_of_true (cutFreeFrom_completed rfl) (Or.inl (hostname_long_iff.mp ⟨_, built⟩))
        | ok msg =>
            have short : ¬SOCKS5_MAX_LEN < hostname.strlen := by
              intro long
              obtain ⟨error, refused⟩ := hostname_long_iff.mpr long
              cases built.symm.trans refused
            rw [or_iff_right short]
            exact (client_requests built).cutFree_iff.trans client_header_iff

end Client

-----------------------------------------------------------------------------------------
-- The server
-----------------------------------------------------------------------------------------

/-- How many bytes a server takes for the greeting. -/
def greetingLength (received : List UInt8) : Nat := (byteAt received 2).toNat + 3

/-- How the bytes that a server receives are cut makes no difference. -/
def ServerUnaffected (memory : Uninitialised) (received : List UInt8) : Prop :=
  received.length ≤ SOCKS5_NEGO_MSG_LEN
  ∧ (greetingLength received ≤ received.length →
      (serverParseNegoInit received (greetingLength received)).isOk = true
      ∨ memory = .null ∧ received.length = greetingLength received)

theorem serverParseNegoInit_congr {a b : List UInt8} {n : Nat} (some : 2 ≤ n)
    (same : ∀ i < n, byteAt a i = byteAt b i)
    : serverParseNegoInit a n = serverParseNegoInit b n := by
  have methods : (List.range (min n (byteAt a 1).toNat)).any
        (fun i => decide (2 ≤ i) && byteAt a i == 0x00)
      = (List.range (min n (byteAt a 1).toNat)).any
        (fun i => decide (2 ≤ i) && byteAt b i == 0x00) := by
    rw [Bool.eq_iff_iff, List.any_eq_true, List.any_eq_true]
    refine exists_congr (fun i => and_congr_right (fun member => ?_))
    have below : i < n := by
      rw [List.mem_range] at member
      omega
    rw [same i below]
  simp only [serverParseNegoInit, same 0 (by omega), same 1 (by omega)] at methods ⊢
  rw [methods]

/-- A method that was found is found among more bytes too. -/
theorem serverParseNegoInit_mono {received : List UInt8} {n m : Nat} (le : n ≤ m)
    (accepted : (serverParseNegoInit received n).isOk = true)
    : (serverParseNegoInit received m).isOk = true := by
  unfold serverParseNegoInit at accepted ⊢
  split at accepted
  · cases accepted
  · rename_i version
    rw [if_neg version]
    split at accepted
    · rename_i found
      rw [if_pos]
      · rfl
      · obtain ⟨i, member, zero⟩ := List.any_eq_true.mp found
        refine List.any_eq_true.mpr ⟨i, ?_, zero⟩
        rw [List.mem_range] at member ⊢
        omega
    · cases accepted

section Server

variable {allowed : CString} {address : GInetSocketAddress} {received : List UInt8}

/-- The data of a server that has read the first bytes of the greeting. -/
def serverAt (allowed : CString) (address : GInetSocketAddress) (read : List UInt8)
    : ConnectAsyncData :=
  (socks5ServerNego allowed address).data.received read

/-- What the server does after as many bytes of the greeting. -/
def greeted (memory : Uninitialised) (allowed : CString) (address : GInetSocketAddress)
    (received : List UInt8) (count : Nat)
    : Endpoint where
  negotiation := (serverAt allowed address (received.take count)).onNegoMsg memory
  output := []
  input := received.drop count

/-- The server waits for more of the greeting. -/
def greeting (allowed : CString) (address : GInetSocketAddress) (received : List UInt8)
    (count : Nat)
    : Endpoint where
  negotiation := (serverAt allowed address (received.take count)).doRead .negoMsg
  output := []
  input := received.drop count

theorem serverAt_offset {count : Nat} (there : count ≤ received.length)
    : (serverAt allowed address (received.take count)).offset = count := by
  change 0 + (received.take count).length = count
  rw [List.length_take_of_le there, Nat.zero_add]

theorem serverAt_size {count : Nat} (there : count ≤ received.length)
    (room : count ≤ SOCKS5_NEGO_MSG_LEN)
    : (serverAt allowed address (received.take count)).buffer.length = SOCKS5_NEGO_MSG_LEN := by
  let start := (socks5ServerNego allowed address).data
  have size : start.buffer.length = SOCKS5_NEGO_MSG_LEN := List.length_replicate
  have fits : start.offset + (received.take count).length ≤ start.buffer.length := by
    rw [List.length_take_of_le there, size]
    change 0 + count ≤ _
    omega
  rw [serverAt, ConnectAsyncData.length_received fits, size]

/-- A read of the greeting inside the buffer. -/
theorem greeting_read (memory : Uninitialised) (allowed : CString) (address : GInetSocketAddress)
    {count more : Nat} (there : count + more ≤ received.length)
    (room : count + more ≤ SOCKS5_NEGO_MSG_LEN)
    : (greeting allowed address received count).read memory more
      = greeted memory allowed address received (count + more) := by
  let start := (socks5ServerNego allowed address).data
  have size : start.buffer.length = SOCKS5_NEGO_MSG_LEN := List.length_replicate
  have within : count ≤ received.length := Nat.le_trans (Nat.le_add_right _ _) there
  have inside : count ≤ SOCKS5_NEGO_MSG_LEN := Nat.le_trans (Nat.le_add_right _ _) room
  have second : ((received.drop count).take more).length = more := by
    rw [List.length_take_of_le]
    rw [List.length_drop]
    omega
  have fits : start.offset + (received.take count).length ≤ start.buffer.length := by
    rw [List.length_take_of_le within, size]
    change 0 + count ≤ _
    omega
  have both : received.take count ++ (received.drop count).take more
      = received.take (count + more) := (List.take_add ..).symm
  have joined : (serverAt allowed address (received.take count)).received
      ((received.drop count).take more)
      = serverAt allowed address (received.take (count + more)) := by
    rw [serverAt, ConnectAsyncData.received_received fits, both]
    rfl
  have ends := Negotiation.ends_read memory
    (n := (serverAt allowed address (received.take count)).doRead .negoMsg) rfl
    ((received.drop count).take more) (by
      simp only [ConnectAsyncData.doRead]
      rw [serverAt_offset within, second, serverAt_size within inside]
      exact room)
  have callback : ReadCallback.negoMsg.run memory
        ((serverAt allowed address (received.take count)).kept ((received.drop count).take more))
        ((received.drop count).take more).length
      = (serverAt allowed address (received.take (count + more))).onNegoMsg memory := by
    rw [← joined]
    rfl
  simp only [Endpoint.read, greeting, greeted, List.drop_drop]
  rw [ends]
  exact congrArg (fun n => Endpoint.mk n [] (received.drop (count + more))) callback

/-- A read that goes behind the end of the buffer. -/
theorem greeting_outside (memory : Uninitialised) (allowed : CString)
    (address : GInetSocketAddress) {count : Nat} (there : count ≤ received.length)
    (room : count ≤ SOCKS5_NEGO_MSG_LEN) {piece : List UInt8}
    (beyond : SOCKS5_NEGO_MSG_LEN < count + piece.length)
    : ((greeting allowed address received count).negotiation.ends memory (.read piece)).next
      = .undefined .outOfBounds := by
  have outside : (serverAt allowed address (received.take count)).store piece = none := by
    rw [ConnectAsyncData.store, serverAt_offset there, serverAt_size there room,
      if_neg (Nat.not_le.mpr beyond)]
  simp only [greeting, ConnectAsyncData.doRead, Negotiation.ends, outside]

/-- The byte NMETHODS as the code reads it, at index 2. -/
theorem byteAt_serverAt {n i : Nat} (there : n ≤ received.length) (below : i < n)
    : byteAt (serverAt allowed address (received.take n)).buffer i = byteAt received i :=
  byteAt_received rfl there below

/-- When the server takes the greeting for complete. -/
theorem greeting_complete (allowed : CString) (address : GInetSocketAddress) {count : Nat}
    (there : count ≤ received.length)
    (room : count ≤ SOCKS5_NEGO_MSG_LEN)
    : ((serverAt allowed address (received.take count)).offset ≥ 2
          ∧ (serverAt allowed address (received.take count)).offset - 2
            > (byteAt (serverAt allowed address (received.take count)).buffer 2).toNat
        ∨ (serverAt allowed address (received.take count)).offset
          = (serverAt allowed address (received.take count)).length)
      ↔ greetingLength received ≤ count := by
  have asked : (serverAt allowed address (received.take count)).length = 257 := rfl
  rw [serverAt_offset there, asked, greetingLength]
  rw [SOCKS5_NEGO_MSG_LEN] at room
  rcases Nat.lt_or_ge 2 count with method | few
  · rw [byteAt_serverAt there method]
    omega
  · omega

/-- The server waits while the greeting is not complete. -/
theorem greeted_short (memory : Uninitialised) (allowed : CString)
    (address : GInetSocketAddress) {count : Nat} (there : count ≤ received.length)
    (room : count ≤ SOCKS5_NEGO_MSG_LEN) (short : count < greetingLength received)
    : greeted memory allowed address received count = greeting allowed address received count := by
  have incomplete := (not_congr (greeting_complete allowed address there room)).mpr
    (Nat.not_le.mpr short)
  rw [greeted, ConnectAsyncData.onNegoMsg, if_neg incomplete]
  rfl

/-- What the server makes of a complete greeting. -/
def answered (memory : Uninitialised) (data : ConnectAsyncData) : Except Error Unit → Negotiation
  | .ok () => data.build SOCKS5_NEGO_REP_LEN (serverSetNegoReplyMsg SOCKS5_AUTH_NONE) .negoReply
  | .error error =>
      match memory with
      | .wild => { data, next := .undefined .uninitialised }
      | .null =>
          if error.domain = .s5bSocks5 ∧ error.code = .authFailed then
            data.build SOCKS5_NEGO_REP_LEN (serverSetNegoReplyMsg SOCKS5_AUTH_NO_ACCEPT)
              .noSupportedMethod
          else
            data.completeAsyncFromError error

theorem greeted_complete (memory : Uninitialised) (allowed : CString)
    (address : GInetSocketAddress) {count : Nat} (there : count ≤ received.length)
    (room : count ≤ SOCKS5_NEGO_MSG_LEN) (complete : greetingLength received ≤ count)
    : (greeted memory allowed address received count).negotiation
      = answered memory (serverAt allowed address (received.take count))
          (serverParseNegoInit received count) := by
  have taken := (greeting_complete allowed address there room).mpr complete
  have some : 2 ≤ count := Nat.le_trans (Nat.le_add_left 2 _) (Nat.le_of_succ_le complete)
  have parse : serverParseNegoInit (serverAt allowed address (received.take count)).buffer
      (serverAt allowed address (received.take count)).offset
      = serverParseNegoInit received count := by
    rw [serverAt_offset there]
    exact serverParseNegoInit_congr some (fun i below => byteAt_serverAt there below)
  rw [greeted, ConnectAsyncData.onNegoMsg, if_pos taken, parse]
  rfl

/-- By induction on the run: the server waits for ever, or takes the greeting for complete. -/
theorem greeting_through {count : Nat} {e' : Endpoint}
    (small : received.length ≤ SOCKS5_NEGO_MSG_LEN)
    (there : count ≤ received.length) (short : count < greetingLength received)
    (run : Runs memory (greeting allowed address received count) e') (stopped : Over memory e')
    : received.length < greetingLength received
        ∧ e'.observed = some { replies := [], completion := none, unread := [] }
      ∨ ∃ n, greetingLength received ≤ n ∧ n ≤ received.length
          ∧ Runs memory (greeted memory allowed address received n) e' := by
  generalize start : greeting allowed address received count = e at run
  induction run using ReflTransGen.head_induction_on generalizing count with
  | refl =>
      subst start
      have offset : (greeting allowed address received count).negotiation.wanted = 257 - count := by
        change 257 - (0 + (received.take count).length) = 257 - count
        rw [List.length_take_of_le there, Nat.zero_add]
      rw [SOCKS5_NEGO_MSG_LEN] at small
      rcases Nat.lt_or_ge count received.length with more | all
      · have next : Step memory (greeting allowed address received count)
            ((greeting allowed address received count).read memory 1) := by
          refine .read 1 rfl (by decide) (by rw [offset]; omega) ?_
          simp only [greeting, List.length_drop]
          omega
        exact absurd next (stopped _)
      · refine Or.inl ⟨by omega, ?_⟩
        simp [observed, greeting, ConnectAsyncData.doRead, List.drop_eq_nil_of_le all]
  | @head e₀ e₁ step rest ih =>
      subst start
      cases step with
      | wrote n isWriting => cases isWriting
      | read n isReading some fits within =>
          simp only [greeting, List.length_drop] at within
          have there' : count + n ≤ received.length := by omega
          rw [greeting_read memory allowed address there' (Nat.le_trans there' small)] at rest ih
          rcases Nat.lt_or_ge (count + n) (greetingLength received) with short' | complete
          · have same := greeted_short memory allowed address there' (Nat.le_trans there' small)
              short'
            exact ih there' short' same.symm
          · exact Or.inr ⟨count + n, complete, there', rest⟩

/-- The state after a complete greeting. -/
theorem greeted_eq (memory : Uninitialised) (allowed : CString)
    (address : GInetSocketAddress) {count : Nat} (there : count ≤ received.length)
    (room : count ≤ SOCKS5_NEGO_MSG_LEN) (complete : greetingLength received ≤ count)
    : greeted memory allowed address received count = {
        negotiation := answered memory (serverAt allowed address (received.take count))
          (serverParseNegoInit received count)
        output := [], input := received.drop count } := by
  rw [← greeted_complete memory allowed address there room complete]
  rfl

/-- An accepted greeting is answered, and the rest is too little for a request. -/
theorem greeted_accepted {n : Nat} {e' : Endpoint} (small : received.length ≤ SOCKS5_NEGO_MSG_LEN)
    (there : n ≤ received.length) (complete : greetingLength received ≤ n)
    (accepted : (serverParseNegoInit received n).isOk = true)
    (run : Runs memory (greeted memory allowed address received n) e') (stopped : Over memory e')
    : e'.observed = some {
        replies := serverSetNegoReplyMsg SOCKS5_AUTH_NONE, completion := none, unread := [] } := by
  have state := greeted_eq memory allowed address there (Nat.le_trans there small) complete
  cases parsed : serverParseNegoInit received n with
  | error error =>
      rw [parsed] at accepted
      cases accepted
  | ok value =>
      rw [parsed] at state
      rw [state] at run
      let e : Endpoint := {
        negotiation := answered memory (serverAt allowed address (received.take n)) (.ok value)
        output := [], input := received.drop n }
      have leads : Leads memory e (e.flush memory) :=
        leads_flush (rfl : e.negotiation.next = .writing .negoReply) (Nat.succ_pos 1)
      have counted : Counted (e.flush memory) .connectMsg := ⟨rfl, rfl, Nat.succ_pos 3⟩
      have left : (e.flush memory).input.length ≤ 1 := by
        change (received.drop n).length ≤ 1
        simp only [greetingLength, SOCKS5_NEGO_MSG_LEN] at complete small
        rw [List.length_drop]
        omega
      refine starves counted ?_ ?_ (leads.through e' run stopped) stopped
      · have wanted : (e.flush memory).negotiation.wanted = 4 := rfl
        rw [wanted]
        exact Nat.lt_of_le_of_lt left (by decide)
      · have size : (e.flush memory).negotiation.data.buffer.length = 262 := List.length_replicate
        have offset : (e.flush memory).negotiation.data.offset = 0 := rfl
        rw [size, offset, Nat.zero_add]
        exact Nat.le_trans left (by decide)

/-- The error after a greeting without a method that is supported. -/
def noSupportedMethod : Error :=
  .s5b .authFailed "The client did not offer any authentication method we support."

/-- The server refuses the methods and ends the negotiation. -/
theorem refusing_observed (data : ConnectAsyncData) {left : List UInt8} {e' : Endpoint}
    (run : Runs memory
      { negotiation := data.build SOCKS5_NEGO_REP_LEN
          (serverSetNegoReplyMsg SOCKS5_AUTH_NO_ACCEPT) .noSupportedMethod
        output := [], input := left } e')
    (stopped : Over memory e')
    : e'.observed = some {
        replies := serverSetNegoReplyMsg SOCKS5_AUTH_NO_ACCEPT
        completion := some (.error noSupportedMethod), unread := left } := by
  let e : Endpoint := {
    negotiation := data.build SOCKS5_NEGO_REP_LEN
      (serverSetNegoReplyMsg SOCKS5_AUTH_NO_ACCEPT) .noSupportedMethod
    output := [], input := left }
  have leads : Leads memory e (e.flush memory) :=
    leads_flush (rfl : e.negotiation.next = .writing .noSupportedMethod) (Nat.succ_pos 1)
  have completed : (e.flush memory).negotiation.next = .completed (.error noSupportedMethod) := rfl
  have ended : Over memory (e.flush memory) := over_of_completed completed
  rw [ended.runs_eq (leads.through e' run stopped), observed_completed completed]
  rfl

/-- A refused greeting ends the negotiation, with what was not read yet left over. -/
theorem greeted_refused {n : Nat} {error : Error} (allowed : CString)
    (address : GInetSocketAddress) (small : received.length ≤ SOCKS5_NEGO_MSG_LEN)
    (there : n ≤ received.length) (complete : greetingLength received ≤ n)
    (refused : serverParseNegoInit received n = .error error)
    : ∃ o, o.unread = received.drop n
        ∧ ∀ e', Runs .null (greeted .null allowed address received n) e' → Over .null e' →
          e'.observed = some o := by
  have state := greeted_eq .null allowed address there (Nat.le_trans there small) complete
  rw [refused] at state
  by_cases method : error.domain = .s5bSocks5 ∧ error.code = .authFailed
  · simp only [answered, if_pos method] at state
    rw [state]
    refine ⟨⟨serverSetNegoReplyMsg SOCKS5_AUTH_NO_ACCEPT, some (.error noSupportedMethod),
      received.drop n⟩, rfl, fun e' run stopped => ?_⟩
    exact refusing_observed _ run stopped
  · simp only [answered, if_neg method] at state
    rw [state]
    refine ⟨⟨[], some (.error error), received.drop n⟩, rfl, fun e' run stopped => ?_⟩
    have ended : Over .null ({
        negotiation := (serverAt allowed address (received.take n)).completeAsyncFromError error
        output := [], input := received.drop n } : Endpoint) :=
      over_of_completed rfl
    rw [ended.runs_eq run]
    rfl

/-- A server that reads the whole complete greeting at once leaves nothing unread. -/
theorem greeted_all (allowed : CString) (address : GInetSocketAddress)
    (small : received.length ≤ SOCKS5_NEGO_MSG_LEN)
    (complete : greetingLength received ≤ received.length)
    : ∃ o, o.unread = []
        ∧ ∀ e', Runs .null (greeted .null allowed address received received.length) e' →
          Over .null e' → e'.observed = some o := by
  cases parsed : serverParseNegoInit received received.length with
  | ok value =>
      refine ⟨⟨serverSetNegoReplyMsg SOCKS5_AUTH_NONE, none, []⟩, rfl, fun e' run stopped => ?_⟩
      exact greeted_accepted small (Nat.le_refl _) complete (by rw [parsed]; rfl) run stopped
  | error error =>
      obtain ⟨o, unread, same⟩ :=
        greeted_refused allowed address small (Nat.le_refl _) complete parsed
      rw [List.drop_length] at unread
      exact ⟨o, unread, same⟩

/-- A read of as many bytes, where none were read before. -/
theorem greeting_runs (memory : Uninitialised) (allowed : CString) (address : GInetSocketAddress)
    {n : Nat} (some : 0 < n) (there : n ≤ received.length)
    (room : n ≤ SOCKS5_NEGO_MSG_LEN)
    : Runs memory (greeting allowed address received 0)
        (greeted memory allowed address received n) := by
  have wanted : (greeting allowed address received 0).negotiation.wanted = 257 := rfl
  have step : Step memory (greeting allowed address received 0)
      ((greeting allowed address received 0).read memory n) :=
    .read n rfl some (Nat.le_trans room (wanted.symm ▸ by decide)) there
  rw [greeting_read memory allowed address (by rwa [Nat.zero_add]) (by rwa [Nat.zero_add]),
    Nat.zero_add] at step
  exact .single step

/-- A read of five bytes overruns the buffer. -/
theorem greeting_overrun (memory : Uninitialised) (allowed : CString)
    (address : GInetSocketAddress) (long : SOCKS5_NEGO_MSG_LEN < received.length)
    : ¬CutFreeFrom memory (greeting allowed address received 0) := by
  have wanted : (greeting allowed address received 0).negotiation.wanted = 257 := rfl
  have step : Step memory (greeting allowed address received 0)
      ((greeting allowed address received 0).read memory 5) :=
    .read 5 rfl (by decide) (wanted.symm ▸ by decide) long
  have taken : (received.take 5).length = 5 := List.length_take_of_le long
  have overruns : ((greeting allowed address received 0).read memory 5).negotiation.next
      = .undefined .outOfBounds :=
    greeting_outside memory allowed address (Nat.zero_le _) (Nat.zero_le _)
      (taken.symm ▸ by decide)
  exact not_cutFreeFrom_undefined overruns (.single step)

theorem server_unaffected (allowed : CString) (address : GInetSocketAddress)
    (same : CutFreeFrom memory (greeting allowed address received 0))
    : ServerUnaffected memory received := by
  have small : received.length ≤ SOCKS5_NEGO_MSG_LEN :=
    Nat.not_lt.mp (fun long => greeting_overrun memory allowed address long same)
  refine ⟨small, fun complete => ?_⟩
  have some : 0 < greetingLength received := Nat.succ_pos _
  have room := Nat.le_trans complete small
  have atOnce := greeting_runs memory allowed address some complete room
  cases parsed : serverParseNegoInit received (greetingLength received) with
  | ok value => exact Or.inl rfl
  | error error =>
      refine Or.inr ?_
      have state := greeted_eq memory allowed address complete room (Nat.le_refl _)
      rw [parsed] at state
      cases memory with
      | wild =>
          have undefined : (greeted .wild allowed address received
              (greetingLength received)).negotiation.next = .undefined .uninitialised := by
            rw [state]
            rfl
          exact absurd same (not_cutFreeFrom_undefined undefined atOnce)
      | null =>
          refine ⟨rfl, Nat.le_antisymm (Nat.not_lt.mp (fun more => ?_)) complete⟩
          obtain ⟨o₁, unread₁, same₁⟩ :=
            greeted_refused allowed address small complete (Nat.le_refl _) parsed
          obtain ⟨o₂, unread₂, same₂⟩ := greeted_all allowed address small complete
          obtain ⟨e₁, run₁, stopped₁⟩ :=
            exists_over .null (greeted .null allowed address received (greetingLength received))
          obtain ⟨e₂, run₂, stopped₂⟩ :=
            exists_over .null (greeted .null allowed address received received.length)
          have whole := greeting_runs .null allowed address (Nat.lt_trans some more)
            (Nat.le_refl _) small
          have agree := (same e₁ e₂ (atOnce.trans run₁) stopped₁ (whole.trans run₂) stopped₂).1
          rw [same₁ e₁ run₁ stopped₁, same₂ e₂ run₂ stopped₂] at agree
          have left : received.drop (greetingLength received) = [] := by
            rw [← unread₁, ← unread₂, Option.some.inj agree]
          rw [List.drop_eq_nil_iff] at left
          exact absurd more (Nat.not_lt.mpr left)

/-- Where the server is not affected, all runs show the same. -/
theorem server_cutFree (allowed : CString) (address : GInetSocketAddress)
    (unaffected : ServerUnaffected memory received)
    : CutFreeFrom memory (greeting allowed address received 0) := by
  obtain ⟨small, accepted⟩ := unaffected
  have some : 0 < greetingLength received := Nat.succ_pos _
  have through {e' : Endpoint} (run : Runs memory (greeting allowed address received 0) e')
      (stopped : Over memory e') :=
    greeting_through small (Nat.zero_le _) some run stopped
  rcases Nat.lt_or_ge received.length (greetingLength received) with short | complete
  · refine cutFreeFrom_of_observed (fun e' run stopped => ?_) (o := ⟨[], none, []⟩)
    rcases through run stopped with ⟨_, waits⟩ | ⟨n, enough, there, _⟩
    · exact waits
    · exact absurd (Nat.le_trans enough there) (Nat.not_le.mpr short)
  · cases parsed : serverParseNegoInit received (greetingLength received) with
    | ok value =>
        refine cutFreeFrom_of_observed (fun e' run stopped => ?_)
          (o := ⟨serverSetNegoReplyMsg SOCKS5_AUTH_NONE, none, []⟩)
        rcases through run stopped with ⟨short, _⟩ | ⟨n, enough, there, rest⟩
        · exact absurd complete (Nat.not_le.mpr short)
        · refine greeted_accepted small there enough ?_ rest stopped
          exact serverParseNegoInit_mono enough (by rw [parsed]; rfl)
    | error error =>
        have ⟨initialised, all⟩ : memory = .null ∧ received.length = greetingLength received := by
          refine (accepted complete).resolve_left (fun found => ?_)
          rw [parsed] at found
          cases found
        subst initialised
        obtain ⟨o, _, same⟩ :=
          greeted_refused allowed address small complete (Nat.le_refl _) parsed
        refine cutFreeFrom_of_observed (fun e' run stopped => ?_) (o := o)
        rcases through run stopped with ⟨short, _⟩ | ⟨n, enough, there, rest⟩
        · exact absurd complete (Nat.not_le.mpr short)
        · have whole : n = greetingLength received := Nat.le_antisymm (all ▸ there) enough
          subst whole
          exact same e' rest stopped

theorem server_cutFree_iff (memory : Uninitialised) (allowed : CString)
    (address : GInetSocketAddress) (received : List UInt8)
    : CutFree memory (socks5ServerNego allowed address) received
      ↔ ServerUnaffected memory received :=
  ⟨server_unaffected allowed address, server_cutFree allowed address⟩

end Server

-----------------------------------------------------------------------------------------
-- Both sides
-----------------------------------------------------------------------------------------

/-- When it makes no difference how the received bytes are cut, for a client and for a server.
-/
theorem cutting_makes_no_difference (memory : Uninitialised)
    : (∀ hostname received,
        CutFree memory (socks5ClientNego hostname) received
          ↔ ClientUnaffected memory hostname received)
      ∧ ∀ allowed address received,
          CutFree memory (socks5ServerNego allowed address) received
            ↔ ServerUnaffected memory received :=
  ⟨fun _ received => client_cutFree_iff received,
    fun allowed address received => server_cutFree_iff memory allowed address received⟩

/-- A proxy at 127.0.0.1 takes the greeting and the request. -/
def proxyReply : List UInt8 := [5, 0, 5, 0, 0, 1, 127, 0, 0, 1, 0, 0]

theorem cut_address_makes_a_difference
    : ¬((∀ memory hostname received, CutFree memory (socks5ClientNego hostname) received)
        ∧ ∀ memory allowed address received,
          CutFree memory (socks5ServerNego allowed address) received) := by
  intro claimed
  have unaffected : ClientUnaffected .null hostA proxyReply :=
    (client_cutFree_iff proxyReply).mp (claimed.1 .null hostA proxyReply)
  rcases unaffected with few | answered
  · exact absurd few (by decide)
  have header : SOCKS5_MAX_LEN < hostA.strlen ∨ ReplyUnaffected (proxyReply.drop 2) := answered
  rcases header with long | few | missing
  · exact absurd long (by decide)
  · exact absurd few (by decide)
  · have address : 6 < 6 := missing
    exact absurd address (by decide)

end McabberJingle.Socks5
