import McabberJingle.Guarantees.Admission
import McabberJingle.Guarantees.Replying

/-! What a SOCKS5 server must send for the client to take the connection as granted, and what it can
send to lead the client astray.
-/

namespace McabberJingle.Socks5

open Endpoint Relation

variable {memory : Uninitialised} {hostname : CString} {output input : List UInt8}

-----------------------------------------------------------------------------------------
-- What may come
-----------------------------------------------------------------------------------------

/-- A reply that grants the connection, with an address and a port of 6 or 18 bytes. -/
def Granted (input unread : List UInt8) : Prop :=
  ∃ atype field,
    (atype = SOCKS5_ATYP_IPV4 ∧ field.length = 6 ∨ atype = SOCKS5_ATYP_IPV6 ∧ field.length = 18)
    ∧ input = [SOCKS5_VERSION, SOCKS5_REP_SUCCEEDED, SOCKS5_RESERVED, atype] ++ field ++ unread

/-- A reply with a whole domain name that is too long for the buffer, or the client's own up to
its first NUL.
-/
def NamesClient (hostname : CString) (input : List UInt8) : Prop :=
  ∃ length tail,
    input = [SOCKS5_VERSION, SOCKS5_REP_SUCCEEDED, SOCKS5_RESERVED, SOCKS5_ATYP_DOMAINNAME, length]
      ++ tail
    ∧ length.toNat + 2 ≤ tail.length
    ∧ (SOCKS5_CONN_REP_LEN < length.toNat + 2
      ∨ (tail.take length.toNat).takeWhile (· != 0) = hostname.bytes)

/-- The server selects no authentication and grants the connection. -/
def Grants (input unread : List UInt8) : Prop :=
  ∃ reply, input = [SOCKS5_VERSION, SOCKS5_AUTH_NONE] ++ reply ∧ Granted reply unread

/-- The C code sets an error through a wild pointer, overruns its buffer, or reads from NULL. -/
def Derails (memory : Uninitialised) (hostname : CString) (input : List UInt8) : Prop :=
  (memory = .wild ∧ ∃ version method rest, input = version :: method :: rest
      ∧ ¬(version = SOCKS5_VERSION ∧ method = SOCKS5_AUTH_NONE))
    ∨ hostname.strlen ≤ SOCKS5_MAX_LEN
      ∧ ∃ reply, input = [SOCKS5_VERSION, SOCKS5_AUTH_NONE] ++ reply ∧ NamesClient hostname reply

/-- What the client sends for a host. -/
def clientSends (hostname : CString) : List UInt8 :=
  clientSetNegoMsg false
    ++ ([SOCKS5_VERSION, SOCKS5_CMD_CONNECT, SOCKS5_RESERVED, SOCKS5_ATYP_DOMAINNAME,
      UInt8.ofNat hostname.strlen] ++ hostname.bytes ++ gHtons S5B_DST_PORT)

/-- How a client ends. -/
structure ClientDecides (memory : Uninitialised) (hostname : CString) (input : List UInt8)
    (e : Endpoint)
    : Prop where
  success : e.negotiation.next = .completed .success
    ↔ hostname.strlen ≤ SOCKS5_MAX_LEN ∧ ∃ unread, Grants input unread
  sent : e.negotiation.next = .completed .success →
    e.output = clientSends hostname ∧ Grants input e.input
  undefined : (∃ what, e.negotiation.next = .undefined what) ↔ Derails memory hostname input
  otherwise : e.negotiation.next = .completed .success
    ∨ (∃ what, e.negotiation.next = .undefined what) ∨ e.negotiation.next.isReading = true
    ∨ ∃ error, e.negotiation.next = .completed (.error error)

-----------------------------------------------------------------------------------------
-- The ends of a run
-----------------------------------------------------------------------------------------

/-- Every full run from `e` ends in one state, of which this holds. -/
def Decided (memory : Uninitialised) (e : Endpoint) (holds : Endpoint → Prop) : Prop :=
  ∃ e₁, FullLeads memory e e₁ ∧ FullOver memory e₁ ∧ holds e₁

theorem Decided.after {e e₁ : Endpoint} {holds holds' : Endpoint → Prop}
    (leads : FullLeads memory e e₁) (decided : Decided memory e₁ holds)
    (weaker : ∀ e, holds e → holds' e)
    : Decided memory e holds' := by
  obtain ⟨e₂, more, stopped, how⟩ := decided
  exact ⟨e₂, leads.trans more, stopped, weaker e₂ how⟩

theorem fullOver_of_undefined {e : Endpoint} {what : Undefined}
    (undefined : e.negotiation.next = .undefined what)
    : FullOver memory e := by
  intro e' step
  cases step with
  | wrote count writing => rw [undefined] at writing; cases writing
  | filled reading => rw [undefined] at reading; cases reading

/-- How the client ends when `granted unread` and `derailed` tell what the rest of the input is. -/
inductive ClientEnds (output : List UInt8) (granted : List UInt8 → Prop) (derailed : Prop)
    (e : Endpoint)
    : Prop
  | waits (reading : e.negotiation.next.isReading = true) (refused : ∀ unread, ¬granted unread)
    (sound : ¬derailed)
  | fails (error : Error) (completed : e.negotiation.next = .completed (.error error))
    (refused : ∀ unread, ¬granted unread) (sound : ¬derailed)
  | connects (unread : List UInt8) (completed : e.negotiation.next = .completed .success)
    (accepted : granted unread) (sent : e.output = output) (left : e.input = unread)
  | derails (what : Undefined) (undefined : e.negotiation.next = .undefined what)
    (astray : derailed)

theorem ClientEnds.of_iff {granted granted' : List UInt8 → Prop} {derailed derailed' : Prop}
    {e : Endpoint} (ends : ClientEnds output granted derailed e)
    (sameGrant : ∀ unread, granted unread ↔ granted' unread) (same : derailed ↔ derailed')
    : ClientEnds output granted' derailed' e := by
  have equal : granted = granted' := funext (fun unread => propext (sameGrant unread))
  rwa [equal, propext same] at ends

theorem decided_starved {e : Endpoint} {callback : ReadCallback} {granted : List UInt8 → Prop}
    {derailed : Prop} (reading : e.negotiation.next = .reading callback)
    (missing : e.input.length < e.negotiation.wanted) (refused : ∀ unread, ¬granted unread)
    (sound : ¬derailed)
    : Decided memory e (ClientEnds output granted derailed) :=
  ⟨e, .refl memory e, fullOver_of_starved reading missing,
    .waits (by rw [reading]; rfl) refused sound⟩

-----------------------------------------------------------------------------------------
-- The address of the reply
-----------------------------------------------------------------------------------------

/-- The client reads an address of a family, and a port. -/
theorem family_ends {data : ConnectAsyncData} {n : Nat}
    (size : data.buffer.length = SOCKS5_CONN_REP_LEN) (some : 0 < n)
    (small : n ≤ SOCKS5_CONN_REP_LEN)
    : Decided memory { negotiation := data.refill n .connectReplyAddr, output, input }
        (ClientEnds output
          (fun unread => ∃ field : List UInt8, field.length = n ∧ input = field ++ unread)
          False) := by
  let e : Endpoint := { negotiation := data.refill n .connectReplyAddr, output, input }
  rcases Nat.lt_or_ge input.length n with missing | there
  · refine decided_starved (e := e) rfl missing ?_ not_false
    rintro unread ⟨field, length, rfl⟩
    rw [List.length_append] at missing
    omega
  have counted : Counted e .connectReplyAddr := ⟨rfl, rfl, some⟩
  have room : e.negotiation.data.length ≤ e.negotiation.data.buffer.length := size ▸ small
  have leads : FullLeads memory e (e.fill memory) := fullLeads_fill rfl there
  rw [counted.fill_eq there room] at leads
  refine ⟨_, leads, fullOver_of_completed rfl, .connects (input.drop n) rfl ?_ rfl rfl⟩
  exact ⟨input.take n, List.length_take_of_le there, (List.take_append_drop n input).symm⟩

/-- The client reads a domain name, and a port, and takes them for what a client sends. -/
theorem name_ends {data : ConnectAsyncData} (client : data.externalAddress = none)
    (host : data.hostname = hostname) (size : data.buffer.length = SOCKS5_CONN_REP_LEN)
    (n : Nat) (output input : List UInt8)
    : Decided memory { negotiation := data.refill (n + 2) .connectAddr, output, input }
        (ClientEnds output (fun _ => False) (n + 2 ≤ input.length
          ∧ (SOCKS5_CONN_REP_LEN < n + 2
            ∨ (input.take n).takeWhile (· != 0) = hostname.bytes))) := by
  let e : Endpoint := { negotiation := data.refill (n + 2) .connectAddr, output, input }
  rcases Nat.lt_or_ge input.length (n + 2) with missing | there
  · exact decided_starved (e := e) rfl missing (fun _ => not_false)
      (fun astray => absurd astray.1 (Nat.not_le.mpr missing))
  have leads : FullLeads memory e (e.fill memory) := fullLeads_fill rfl there
  rcases Nat.lt_or_ge SOCKS5_CONN_REP_LEN (n + 2) with overlong | small
  · have piece : (input.take (n + 2)).length = n + 2 := List.length_take_of_le there
    have overruns : (e.fill memory).negotiation.next = .undefined .outOfBounds := by
      change (e.negotiation.ends memory (.read (input.take (n + 2)))).next = _
      have begins : e.negotiation.next = .reading .connectAddr := rfl
      have offset : e.negotiation.data.offset = 0 := rfl
      have length : e.negotiation.data.buffer.length = SOCKS5_CONN_REP_LEN := size
      simp only [Negotiation.ends, begins, ConnectAsyncData.store, piece, offset, length]
      rw [if_neg (by omega)]
    exact ⟨_, leads, fullOver_of_undefined overruns, .derails _ overruns ⟨there, Or.inl overlong⟩⟩
  have counted : Counted e .connectAddr := ⟨rfl, rfl, Nat.succ_pos _⟩
  have room : e.negotiation.data.length ≤ e.negotiation.data.buffer.length := size ▸ small
  rw [counted.fill_eq there room] at leads
  let stored := e.negotiation.data.received (input.take (n + 2))
  have front : stored.buffer.take n = input.take n := by
    have taken : (input.take (n + 2)).length = n + 2 := List.length_take_of_le there
    rw [take_received rfl _ (by rw [taken]; omega), List.take_take, Nat.min_eq_left (by omega)]
  have compared : stored.hostname = gStrndup stored.buffer (stored.length - 2)
      ↔ (input.take n).takeWhile (· != 0) = hostname.bytes := by
    have same : stored.hostname = hostname := host
    have length : stored.length - 2 = n := rfl
    rw [gStrndup_eq_iff, length, front, same]
  have none_ : stored.externalAddress = none := client
  by_cases own : (input.take n).takeWhile (· != 0) = hostname.bytes
  · have led : stored.onConnectAddr.next = .undefined .nullAddress := by
      rw [ConnectAsyncData.onConnectAddr, if_pos (compared.mpr own), none_]
    exact ⟨_, leads, fullOver_of_undefined led, .derails _ led ⟨there, Or.inr own⟩⟩
  · have refused : stored.onConnectAddr.next = .completed (.error invalidHostname) := by
      rw [ConnectAsyncData.onConnectAddr, if_neg (fun same => own (compared.mp same))]
      rfl
    refine ⟨_, leads, fullOver_of_completed refused, .fails _ refused (fun _ => not_false) ?_⟩
    rintro ⟨_, long | same⟩
    · exact absurd long (Nat.not_lt.mpr small)
    · exact own same

-----------------------------------------------------------------------------------------
-- The header of the reply
-----------------------------------------------------------------------------------------

section Header

variable {version rep rsv atype : UInt8} {tail : List UInt8}

/-- The header of a success. -/
def Header (version rep rsv : UInt8) : Prop :=
  version = SOCKS5_VERSION ∧ rep = SOCKS5_REP_SUCCEEDED ∧ rsv = SOCKS5_RESERVED

theorem granted_cons {unread : List UInt8}
    : Granted (version :: rep :: rsv :: atype :: tail) unread
      ↔ Header version rep rsv ∧ ∃ field : List UInt8,
        (atype = SOCKS5_ATYP_IPV4 ∧ field.length = 6 ∨ atype = SOCKS5_ATYP_IPV6 ∧ field.length = 18)
        ∧ tail = field ++ unread := by
  constructor
  · rintro ⟨atype', field, family, is⟩
    cases is
    exact ⟨⟨rfl, rfl, rfl⟩, field, family, rfl⟩
  · rintro ⟨⟨rfl, rfl, rfl⟩, field, family, rfl⟩
    exact ⟨atype, field, family, rfl⟩

theorem namesClient_cons
    : NamesClient hostname (version :: rep :: rsv :: atype :: tail)
      ↔ (Header version rep rsv ∧ atype = SOCKS5_ATYP_DOMAINNAME)
        ∧ ∃ length rest, tail = length :: rest ∧ length.toNat + 2 ≤ rest.length
          ∧ (SOCKS5_CONN_REP_LEN < length.toNat + 2
            ∨ (rest.take length.toNat).takeWhile (· != 0) = hostname.bytes) := by
  constructor
  · rintro ⟨length, rest, is, names⟩
    cases is
    exact ⟨⟨⟨rfl, rfl, rfl⟩, rfl⟩, length, rest, rfl, names⟩
  · rintro ⟨⟨⟨rfl, rfl, rfl⟩, rfl⟩, length, rest, rfl, names⟩
    exact ⟨length, rest, rfl, names⟩

/-- The client refuses every other header, and goes on with the address of a known type. -/
theorem clientParseConnectReply_cases (version rep rsv atype : UInt8) (tail : List UInt8)
    : (Header version rep rsv
        ∧ (atype = SOCKS5_ATYP_IPV4 ∨ atype = SOCKS5_ATYP_IPV6 ∨ atype = SOCKS5_ATYP_DOMAINNAME)
        ∧ clientParseConnectReply (version :: rep :: rsv :: atype :: tail) = .ok atype)
      ∨ ¬(Header version rep rsv
        ∧ (atype = SOCKS5_ATYP_IPV4 ∨ atype = SOCKS5_ATYP_IPV6 ∨ atype = SOCKS5_ATYP_DOMAINNAME))
        ∧ ∃ error, clientParseConnectReply (version :: rep :: rsv :: atype :: tail)
          = .error error := by
  unfold clientParseConnectReply
  simp only [byteAt, List.getD_cons_zero, List.getD_cons_succ]
  by_cases five : version = SOCKS5_VERSION
  · rw [if_neg (not_not_intro five)]
    by_cases succeeded : rep = SOCKS5_REP_SUCCEEDED
    · rw [if_pos succeeded]
      by_cases reserved : rsv = SOCKS5_RESERVED
      · rw [if_neg (not_not_intro reserved)]
        by_cases known : atype = SOCKS5_ATYP_IPV4 ∨ atype = SOCKS5_ATYP_IPV6
            ∨ atype = SOCKS5_ATYP_DOMAINNAME
        · rw [if_pos known]
          exact Or.inl ⟨⟨five, succeeded, reserved⟩, known, rfl⟩
        · rw [if_neg known]
          exact Or.inr ⟨fun both => known both.2, _, rfl⟩
      · rw [if_pos reserved]
        exact Or.inr ⟨fun both => reserved both.1.2.2, _, rfl⟩
    · rw [if_neg succeeded]
      exact Or.inr ⟨fun both => succeeded both.1.2.1, _, rfl⟩
  · rw [if_pos five]
    exact Or.inr ⟨fun both => five both.1.1, _, rfl⟩

/-- Only a header of success is the begin of a reply that the client goes on with. -/
theorem granted_family {unread : List UInt8}
    (granted : Granted (version :: rep :: rsv :: atype :: tail) unread)
    : Header version rep rsv
      ∧ (atype = SOCKS5_ATYP_IPV4 ∨ atype = SOCKS5_ATYP_IPV6 ∨ atype = SOCKS5_ATYP_DOMAINNAME) := by
  obtain ⟨header, _, family, _⟩ := granted_cons.mp granted
  rcases family with ⟨ipv4, _⟩ | ⟨ipv6, _⟩
  · exact ⟨header, Or.inl ipv4⟩
  · exact ⟨header, Or.inr (Or.inl ipv6)⟩

theorem header_ends {data : ConnectAsyncData} (client : data.externalAddress = none)
    (host : data.hostname = hostname) (size : data.buffer.length = SOCKS5_CONN_REP_LEN)
    (parsed : clientParseConnectReply data.buffer
      = clientParseConnectReply (version :: rep :: rsv :: atype :: tail))
    : Decided memory { negotiation := data.onConnectReply, output, input := tail }
        (ClientEnds output (Granted (version :: rep :: rsv :: atype :: tail))
          (NamesClient hostname (version :: rep :: rsv :: atype :: tail))) := by
  unfold ConnectAsyncData.onConnectReply
  rw [parsed]
  rcases clientParseConnectReply_cases version rep rsv atype tail with
    ⟨header, family, ok⟩ | ⟨other, error, refused⟩
  · rw [ok]
    dsimp only
    rcases family with rfl | rfl | rfl
    · rw [if_pos rfl]
      refine (family_ends size (by decide) (by decide)).after (.refl memory _) (fun e ends => ?_)
      refine ends.of_iff (fun unread => ?_) ?_
      · rw [granted_cons]
        have apart : SOCKS5_ATYP_IPV4 ≠ SOCKS5_ATYP_IPV6 := by decide
        simp [header, apart]
      · rw [namesClient_cons]
        have apart : SOCKS5_ATYP_IPV4 ≠ SOCKS5_ATYP_DOMAINNAME := by decide
        simp [apart]
    · rw [if_neg (by decide), if_pos rfl]
      refine (family_ends size (by decide) (by decide)).after (.refl memory _) (fun e ends => ?_)
      refine ends.of_iff (fun unread => ?_) ?_
      · rw [granted_cons]
        have apart : SOCKS5_ATYP_IPV6 ≠ SOCKS5_ATYP_IPV4 := by decide
        simp [header, apart]
      · rw [namesClient_cons]
        have apart : SOCKS5_ATYP_IPV6 ≠ SOCKS5_ATYP_DOMAINNAME := by decide
        simp [apart]
    · rw [if_neg (by decide), if_neg (by decide)]
      have never (unread : List UInt8)
          : ¬Granted (version :: rep :: rsv :: SOCKS5_ATYP_DOMAINNAME :: tail) unread := by
        intro granted
        obtain ⟨_, _, family, _⟩ := granted_cons.mp granted
        rcases family with ⟨is, _⟩ | ⟨is, _⟩
        · exact absurd is (by decide)
        · exact absurd is (by decide)
      cases tail with
      | nil =>
          refine decided_starved rfl Nat.zero_lt_one never ?_
          rw [namesClient_cons]
          rintro ⟨_, _, _, missing, _⟩
          cases missing
      | cons length rest =>
          have room : 0 < data.buffer.length := by
            rw [size]
            decide
          let e : Endpoint :=
            { negotiation := data.refill 1 .connectReplyAddrLen, output, input := length :: rest }
          have leads : FullLeads memory e (e.fill memory) :=
            fullLeads_fill rfl (Nat.le_add_left 1 _)
          rw [fill_addrLen (Or.inr rfl) room] at leads
          let data' := { data with buffer := length :: data.buffer.drop 1 }
          have size' : data'.buffer.length = SOCKS5_CONN_REP_LEN := by
            rw [List.length_cons, List.length_drop, size]
            decide
          have client' : data'.externalAddress = none := client
          have host' : data'.hostname = hostname := host
          refine (name_ends client' host' size' length.toNat output rest).after leads
            (fun e ends => ?_)
          refine ends.of_iff (fun unread => iff_of_false not_false (never unread)) ?_
          rw [namesClient_cons]
          constructor
          · exact fun names => ⟨⟨header, rfl⟩, length, rest, rfl, names⟩
          · rintro ⟨_, _, _, is, names⟩
            cases is
            exact names
  · rw [refused]
    refine ⟨_, .refl memory _, fullOver_of_completed rfl, .fails error rfl ?_ ?_⟩
    · exact fun unread granted => other (granted_family granted)
    · intro names
      obtain ⟨⟨header, domain⟩, _⟩ := namesClient_cons.mp names
      exact other ⟨header, Or.inr (Or.inr domain)⟩

/-- The client waits for the reply. -/
theorem awaiting_ends (memory : Uninitialised) (hostname : CString) (output input : List UInt8)
    : Decided memory (awaiting hostname output input)
        (ClientEnds output (Granted input) (NamesClient hostname input)) := by
  rcases Nat.lt_or_ge input.length 4 with missing | there
  · refine decided_starved (e := awaiting hostname output input) rfl missing ?_ ?_
    · rintro unread ⟨_, _, _, rfl⟩
      simp only [List.length_append, List.length_cons] at missing
      omega
    · rintro ⟨_, _, rfl, _⟩
      simp only [List.length_append, List.length_cons] at missing
      omega
  obtain ⟨version, rep, rsv, atype, tail, rfl⟩ :
      ∃ version rep rsv atype tail, input = version :: rep :: rsv :: atype :: tail := by
    match input, there with
    | version :: rep :: rsv :: atype :: tail, _ => exact ⟨_, _, _, _, _, rfl⟩
  let e := awaiting hostname output (version :: rep :: rsv :: atype :: tail)
  have counted : Counted e .connectReply := ⟨rfl, rfl, Nat.succ_pos 3⟩
  have size : e.negotiation.data.buffer.length = SOCKS5_CONN_REP_LEN := List.length_replicate
  have few : 4 ≤ SOCKS5_CONN_REP_LEN := by decide
  have room : e.negotiation.data.length ≤ e.negotiation.data.buffer.length := size ▸ few
  have leads : FullLeads memory e (e.fill memory) := fullLeads_fill rfl there
  rw [counted.fill_eq there room] at leads
  refine Decided.after leads (header_ends rfl rfl ?_ ?_) (fun _ ends => ends)
  · exact (ConnectAsyncData.length_received (size.symm ▸ few)).trans size
  · refine clientParseConnectReply_congr (fun i below => ?_)
    exact byteAt_received rfl there below

end Header

-----------------------------------------------------------------------------------------
-- The whole negotiation
-----------------------------------------------------------------------------------------

/-- A client that has just begun. -/
def beginning (hostname : CString) (input : List UInt8) : Endpoint where
  negotiation := socks5ClientNego hostname
  output := []
  input := input

/-- The client reads the method. -/
def methodAwaited (hostname : CString) (input : List UInt8) : Endpoint where
  negotiation := (clientAt hostname 2 2).doRead .negoReply
  output := clientSetNegoMsg false
  input := input

theorem beginning_leads (memory : Uninitialised) (hostname : CString) (input : List UInt8)
    : FullLeads memory (beginning hostname input) (methodAwaited hostname input) :=
  fullLeads_flush rfl (Nat.succ_pos 2)

/-- The client writes its request, and waits for the reply. -/
theorem requested_leads {data : ConnectAsyncData} {msg : List UInt8}
    (built : clientSetConnectMsg data.hostname S5B_DST_PORT = .ok msg)
    : FullLeads memory
        { negotiation := data.build SOCKS5_CONN_MSG_LEN msg .connectMsg, output, input }
        { negotiation :=
            { data with
              buffer := List.replicate SOCKS5_CONN_REP_LEN 0, length := 4, offset := 0
            }.doRead .connectReply
          output := output ++ msg, input } := by
  rw [build_eq (clientSetConnectMsg_length built)]
  have some : 0 < msg.length := by
    unfold clientSetConnectMsg at built
    split at built
    · cases built
    · cases built
      simp
  let e : Endpoint := {
    negotiation := ConnectAsyncData.doWrite .connectMsg { data with
      buffer := msg ++ List.replicate (SOCKS5_CONN_MSG_LEN - msg.length) 0
      length := msg.length
      offset := 0 }
    output, input }
  have leads : FullLeads memory e (e.flush memory) := fullLeads_flush rfl some
  rw [flush_eq rfl (Nat.zero_le _)] at leads
  simpa [e, ConnectAsyncData.doWrite, Negotiation.wanted, WriteCallback.done,
    ConnectAsyncData.expect] using leads

theorem grants_cons {version method : UInt8} {reply unread : List UInt8}
    : Grants (version :: method :: reply) unread
      ↔ (version = SOCKS5_VERSION ∧ method = SOCKS5_AUTH_NONE) ∧ Granted reply unread := by
  constructor
  · rintro ⟨reply', is, granted⟩
    cases is
    exact ⟨⟨rfl, rfl⟩, granted⟩
  · rintro ⟨⟨rfl, rfl⟩, granted⟩
    exact ⟨reply, rfl, granted⟩

theorem derails_cons {version method : UInt8} {reply : List UInt8}
    : Derails memory hostname (version :: method :: reply)
      ↔ (memory = .wild ∧ ¬(version = SOCKS5_VERSION ∧ method = SOCKS5_AUTH_NONE))
        ∨ hostname.strlen ≤ SOCKS5_MAX_LEN
          ∧ (version = SOCKS5_VERSION ∧ method = SOCKS5_AUTH_NONE)
          ∧ NamesClient hostname reply := by
  constructor
  · rintro (⟨wild, _, _, _, is, other⟩ | ⟨short, _, is, names⟩)
    · cases is
      exact Or.inl ⟨wild, other⟩
    · cases is
      exact Or.inr ⟨short, ⟨rfl, rfl⟩, names⟩
  · rintro (⟨wild, other⟩ | ⟨short, ⟨rfl, rfl⟩, names⟩)
    · exact Or.inl ⟨wild, version, method, reply, rfl, other⟩
    · exact Or.inr ⟨short, reply, rfl, names⟩

/-- The client takes the method of no authentication, and refuses every other reply. -/
theorem clientParseNegoReply_cases (version method : UInt8) (rest : List UInt8)
    : (version = SOCKS5_VERSION ∧ method = SOCKS5_AUTH_NONE)
        ∧ clientParseNegoReply (version :: method :: rest) false = .ok false
      ∨ ¬(version = SOCKS5_VERSION ∧ method = SOCKS5_AUTH_NONE)
        ∧ ∃ error, clientParseNegoReply (version :: method :: rest) false = .error error := by
  unfold clientParseNegoReply
  simp only [byteAt, List.getD_cons_zero, List.getD_cons_succ]
  by_cases five : version = SOCKS5_VERSION
  · rw [if_neg (not_not_intro five)]
    by_cases none_ : method = SOCKS5_AUTH_NONE
    · rw [if_pos none_]
      exact Or.inl ⟨⟨five, none_⟩, rfl⟩
    · rw [if_neg none_]
      refine Or.inr ⟨fun both => none_ both.2, ?_⟩
      split
      · exact ⟨_, rfl⟩
      · exact ⟨_, rfl⟩
  · rw [if_pos five]
    exact Or.inr ⟨fun both => five both.1, _, rfl⟩

/-- The client reads the method, and goes on with its request. -/
theorem method_ends (memory : Uninitialised) (hostname : CString) (input : List UInt8)
    : Decided memory (methodAwaited hostname input) (ClientEnds (clientSends hostname)
        (fun unread => hostname.strlen ≤ SOCKS5_MAX_LEN ∧ Grants input unread)
        (Derails memory hostname input)) := by
  rcases Nat.lt_or_ge input.length 2 with missing | there
  · refine decided_starved (e := methodAwaited hostname input) rfl missing ?_ ?_
    · rintro unread ⟨_, reply, rfl, _⟩
      simp only [List.length_append, List.length_cons] at missing
      omega
    · rintro (⟨_, _, _, _, rfl, _⟩ | ⟨_, _, rfl, _⟩)
      · simp only [List.length_cons] at missing
        omega
      · simp only [List.length_append, List.length_cons] at missing
        omega
  obtain ⟨version, method, reply, rfl⟩ :
      ∃ version method reply, input = version :: method :: reply := by
    match input, there with
    | version :: method :: reply, _ => exact ⟨_, _, _, rfl⟩
  let e := methodAwaited hostname (version :: method :: reply)
  have counted : Counted e .negoReply := ⟨rfl, rfl, Nat.succ_pos 1⟩
  have leads : FullLeads memory e (e.fill memory) := fullLeads_fill rfl there
  rw [counted.fill_eq there (Nat.le_refl 2)] at leads
  let data := e.negotiation.data.received [version, method]
  have same : clientParseNegoReply data.buffer false
      = clientParseNegoReply (version :: method :: reply) false :=
    clientParseNegoReply_congr (fun i below => byteAt_received rfl there below) false
  have noAuth : data.hasAuth = false := rfl
  change FullLeads memory e ⟨data.onNegoReply memory, clientSetNegoMsg false, reply⟩ at leads
  rw [ConnectAsyncData.onNegoReply, noAuth, same] at leads
  rcases clientParseNegoReply_cases version method reply with ⟨ours, ok⟩ | ⟨other, error, refused⟩
  · rw [ok] at leads
    dsimp only at leads
    have sent : clientSetConnectMsg data.hostname S5B_DST_PORT
        = clientSetConnectMsg hostname S5B_DST_PORT := rfl
    rw [ConnectAsyncData.sendConnectMsg, sent] at leads
    by_cases long : hostname.strlen > SOCKS5_MAX_LEN
    · rw [clientSetConnectMsg, if_pos long] at leads
      refine ⟨_, leads, fullOver_of_completed rfl, .fails _ rfl ?_ ?_⟩
      · exact fun unread granted => absurd long (Nat.not_lt.mpr granted.1)
      · rw [derails_cons]
        rintro (⟨_, other⟩ | ⟨short, _⟩)
        · exact other ours
        · exact absurd long (Nat.not_lt.mpr short)
    · have short : hostname.strlen ≤ SOCKS5_MAX_LEN := Nat.not_lt.mp long
      have built : clientSetConnectMsg data.hostname S5B_DST_PORT = .ok _ := if_neg long
      rw [← sent, built] at leads
      have onward := leads.trans (requested_leads built)
      refine (awaiting_ends memory hostname (clientSends hostname) reply).after onward
        (fun e ends => ?_)
      refine ends.of_iff (fun unread => ?_) ?_
      · simp [grants_cons, ours, short]
      · simp [derails_cons, ours, short]
  · rw [refused] at leads
    have never (unread : List UInt8)
        : ¬(hostname.strlen ≤ SOCKS5_MAX_LEN ∧ Grants (version :: method :: reply) unread) :=
      fun granted => other (grants_cons.mp granted.2).1
    cases memory with
    | null =>
        refine ⟨_, leads, fullOver_of_completed rfl, .fails error rfl never ?_⟩
        rw [derails_cons]
        rintro (⟨wild, _⟩ | ⟨_, ours, _⟩)
        · cases wild
        · exact other ours
    | wild =>
        refine ⟨_, leads, fullOver_of_undefined rfl, .derails _ rfl ?_⟩
        exact derails_cons.mpr (Or.inl ⟨rfl, other⟩)

/-- A reply that is taken as a success leads nobody astray. -/
theorem Grants.not_derails {unread : List UInt8} (grants : Grants input unread)
    : ¬Derails memory hostname input := by
  obtain ⟨reply, rfl, granted⟩ := grants
  rintro (⟨_, _, _, _, is, other⟩ | ⟨_, reply', is, names⟩)
  · cases is
    exact other ⟨rfl, rfl⟩
  · cases is
    obtain ⟨_, _, rfl, _⟩ := names
    obtain ⟨_, _, family, _⟩ := granted_cons.mp granted
    rcases family with ⟨is, _⟩ | ⟨is, _⟩
    · exact absurd is (by decide)
    · exact absurd is (by decide)

/-- When no read is cut, a client ends in one way only: it succeeds for the method of no
authentication followed by a success with an address of a family and a port, having sent its
greeting and its request and left the rest unread; what it does has no meaning in C in the cases
of `Derails`; and else it fails or waits for more.
-/
theorem client_connects (memory : Uninitialised) (hostname : CString) (input : List UInt8)
    : ∃ e, FullLeads memory (beginning hostname input) e ∧ FullOver memory e
        ∧ ClientDecides memory hostname input e := by
  obtain ⟨e, leads, stopped, ends⟩ := method_ends memory hostname input
  refine ⟨e, (beginning_leads memory hostname input).trans leads, stopped, ?_⟩
  cases ends with
  | waits reading refused sound =>
      have not_success : e.negotiation.next ≠ .completed .success := by
        intro completed
        rw [completed] at reading
        cases reading
      have not_undefined : ¬∃ what, e.negotiation.next = .undefined what := by
        rintro ⟨what, undefined⟩
        rw [undefined] at reading
        cases reading
      refine ⟨iff_of_false not_success ?_, fun completed => absurd completed not_success,
        iff_of_false not_undefined sound, Or.inr (Or.inr (Or.inl reading))⟩
      rintro ⟨short, unread, grants⟩
      exact refused unread ⟨short, grants⟩
  | fails error completed refused sound =>
      refine ⟨iff_of_false (by simp [completed]) ?_, fun success => ?_,
        iff_of_false (by simp [completed]) sound, Or.inr (Or.inr (Or.inr ⟨error, completed⟩))⟩
      · rintro ⟨short, unread, grants⟩
        exact refused unread ⟨short, grants⟩
      · cases completed.symm.trans success
  | connects unread completed accepted sent left =>
      refine ⟨iff_of_true completed ⟨accepted.1, unread, accepted.2⟩, fun _ => ?_,
        iff_of_false (by simp [completed]) accepted.2.not_derails, Or.inl completed⟩
      exact ⟨sent, left ▸ accepted.2⟩
  | derails what undefined astray =>
      refine ⟨iff_of_false (by simp [undefined]) ?_, fun success => ?_,
        iff_of_true ⟨what, undefined⟩ astray, Or.inr (Or.inl ⟨what, undefined⟩)⟩
      · rintro ⟨_, unread, grants⟩
        exact grants.not_derails astray
      · cases undefined.symm.trans success

end McabberJingle.Socks5
