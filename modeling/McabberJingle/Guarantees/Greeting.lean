import McabberJingle.Guarantees.Fragmentation

/-! When the SOCKS5 server decides on a greeting, and what it answers. -/

namespace McabberJingle.Socks5

open Endpoint Relation

variable {memory : Uninitialised} {allowed : CString} {address : GInetSocketAddress}
  {received : List UInt8}

-----------------------------------------------------------------------------------------
-- What the server is to do
-----------------------------------------------------------------------------------------

/-- A negotiation after bytes have arrived in pieces, each of which is read if a read is
pending.
-/
def delivered (memory : Uninitialised) (n : Negotiation) (pieces : List (List UInt8))
    : Negotiation :=
  pieces.foldl (fun n piece => n.ends memory (.read piece)) n

/-- The server after the pieces of a greeting, which nothing follows. -/
def afterGreeting (memory : Uninitialised) (allowed : CString) (address : GInetSocketAddress)
    (pieces : List (List UInt8))
    : Endpoint where
  negotiation := delivered memory (socks5ServerNego allowed address) pieces
  output := []
  input := []

/-- The server waits until the greeting is complete. Then it takes the method 0 if that is
offered, and refuses the greeting and fails if not.
-/
structure AnswersGreeting (memory : Uninitialised) (allowed : CString)
    (address : GInetSocketAddress) (methods : List UInt8) (pieces : List (List UInt8))
    : Prop where
  waits : ∀ k, (pieces.take k).flatten.length < pieces.flatten.length →
    (delivered memory (socks5ServerNego allowed address) (pieces.take k)).next
      = .reading .negoMsg
  answers : ∀ e', Runs memory (afterGreeting memory allowed address pieces) e' →
    Over memory e' →
      if 0 ∈ methods then
        e'.observed = some { replies := [0x05, 0x00], completion := none, unread := [] }
      else
        ∃ error, e'.observed
          = some { replies := [0x05, 0xff], completion := some (.error error), unread := [] }

/-- The server fails without an answer. -/
def FailsUnanswered (memory : Uninitialised) (allowed : CString) (address : GInetSocketAddress)
    (pieces : List (List UInt8))
    : Prop :=
  ∀ e', Runs memory (afterGreeting memory allowed address pieces) e' → Over memory e' →
    ∃ error, e'.observed
      = some { replies := [], completion := some (.error error), unread := [] }

-----------------------------------------------------------------------------------------
-- When the server decides
-----------------------------------------------------------------------------------------

/-- What the reads of a greeting come to: the server still waits, or it decided after so many
bytes, or a read went behind the end of the buffer.
-/
inductive Decision where
  | waits
  | decides (count : Nat)
  | overruns

/-- The reads end after these pieces; the server takes `length` bytes for the greeting. -/
def decision (length count : Nat) : List (List UInt8) → Decision
  | [] => .waits
  | piece :: rest =>
      if SOCKS5_NEGO_MSG_LEN < count + piece.length then
        .overruns
      else if length ≤ count + piece.length then
        .decides (count + piece.length)
      else
        decision length (count + piece.length) rest

/-- What a decision tells about the pieces. -/
def Decision.About (length count : Nat) (pieces : List (List UInt8)) : Decision → Prop
  | .waits =>
      count + pieces.flatten.length < length
      ∧ count + pieces.flatten.length ≤ SOCKS5_NEGO_MSG_LEN
  | .decides n =>
      length ≤ n ∧ n ≤ SOCKS5_NEGO_MSG_LEN
      ∧ ∃ k, n = count + (pieces.take k).flatten.length
        ∧ decision length count (pieces.take k) = .decides n
  | .overruns =>
      SOCKS5_NEGO_MSG_LEN < count + pieces.flatten.length
      ∧ ∀ k, count + (pieces.take k).flatten.length ≤ SOCKS5_NEGO_MSG_LEN →
        count + (pieces.take k).flatten.length < length

/-- By induction on the pieces: the first read that ends inside the buffer and behind the length
decides.
-/
theorem decision_about {length count : Nat} (short : count < length)
    (room : count ≤ SOCKS5_NEGO_MSG_LEN) (pieces : List (List UInt8))
    : (decision length count pieces).About length count pieces := by
  induction pieces generalizing count with
  | nil => exact ⟨short, room⟩
  | cons piece rest ih =>
      rw [decision]
      split
      · rename_i beyond
        refine ⟨?_, fun k inside => ?_⟩
        · rw [List.flatten_cons, List.length_append]
          omega
        cases k with
        | zero => exact short
        | succ k =>
            simp only [List.take_succ_cons, List.flatten_cons, List.length_append] at inside
            omega
      split
      · rename_i inside complete
        refine ⟨complete, Nat.not_lt.mp inside, 1, by simp, ?_⟩
        rw [List.take_succ_cons, decision, if_neg inside, if_pos complete]
      · rename_i inside incomplete
        have later := ih (Nat.not_le.mp incomplete) (Nat.not_lt.mp inside)
        have longer (k : Nat) : count + ((piece :: rest).take (k + 1)).flatten.length
            = count + piece.length + (rest.take k).flatten.length := by
          simp only [List.take_succ_cons, List.flatten_cons, List.length_append]
          omega
        have all : count + (piece :: rest).flatten.length
            = count + piece.length + rest.flatten.length := by
          rw [List.flatten_cons, List.length_append, Nat.add_assoc]
        cases decided : decision length (count + piece.length) rest with
        | waits =>
            rw [decided] at later
            rw [Decision.About, all]
            exact later
        | decides n =>
            rw [decided] at later
            obtain ⟨complete, within, k, same, first⟩ := later
            refine ⟨complete, within, k + 1, same.trans (longer k).symm, ?_⟩
            rw [List.take_succ_cons, decision, if_neg inside, if_neg incomplete, first]
        | overruns =>
            rw [decided] at later
            refine ⟨all.symm ▸ later.1, fun k inside' => ?_⟩
            cases k with
            | zero => exact short
            | succ k =>
                rw [longer k] at inside' ⊢
                exact later.2 k inside'

-----------------------------------------------------------------------------------------
-- What the server has then
-----------------------------------------------------------------------------------------

/-- A negotiation that is not reading takes no bytes. -/
theorem delivered_ended {n : Negotiation} (ended : n.next.isReading = false)
    (pieces : List (List UInt8))
    : delivered memory n pieces = n := by
  induction pieces with
  | nil => rfl
  | cons piece rest ih =>
      have kept : n.ends memory (.read piece) = n := by
        unfold Negotiation.ends
        cases next : n.next with
        | reading callback => simp [next, Next.isReading] at ended
        | writing callback => rfl
        | completed completion => rfl
        | undefined what => rfl
      change delivered memory (n.ends memory (.read piece)) rest = n
      rw [kept]
      exact ih

/-- What the server makes of a complete greeting is no read. -/
theorem answered_not_reading (memory : Uninitialised) (data : ConnectAsyncData)
    (parsed : Except Error Unit)
    : (answered memory data parsed).next.isReading = false := by
  cases parsed with
  | ok value => rfl
  | error error =>
      cases memory with
      | wild => rfl
      | null =>
          simp only [answered]
          split <;> rfl

/-- The state that a decision stands for. -/
def Decision.State (memory : Uninitialised) (allowed : CString) (address : GInetSocketAddress)
    (received : List UInt8) (count : Nat) (n : Negotiation)
    : Decision → Prop
  | .waits => n = (greeting allowed address received count).negotiation
  | .decides taken => n = (greeted memory allowed address received taken).negotiation
  | .overruns => n.next = .undefined .outOfBounds

/-- By induction on the pieces: the server gets where the reads lead it. -/
theorem delivered_state (memory : Uninitialised) (allowed : CString)
    (address : GInetSocketAddress) {count : Nat}
    (there : count ≤ received.length) (short : count < greetingLength received)
    (room : count ≤ SOCKS5_NEGO_MSG_LEN) {pieces : List (List UInt8)}
    (next : pieces.flatten <+: received.drop count)
    : (decision (greetingLength received) count pieces).State memory allowed address received
        (count + pieces.flatten.length)
        (delivered memory (greeting allowed address received count).negotiation pieces) := by
  induction pieces generalizing count with
  | nil => rfl
  | cons piece rest ih =>
      obtain ⟨more, all⟩ := next
      rw [List.flatten_cons, List.append_assoc] at all
      have left := congrArg List.length all
      simp only [List.length_append, List.length_drop] at left
      have taken : (received.drop count).take piece.length = piece := by
        rw [← all, List.take_left]
      change Decision.State memory allowed address received _
        (delivered memory
          ((greeting allowed address received count).negotiation.ends memory (.read piece)) rest) _
      rw [decision]
      split
      · rename_i beyond
        have overruns := greeting_outside memory allowed address there room beyond
        rw [Decision.State, delivered_ended (by rw [overruns]; rfl)]
        exact overruns
      rename_i inside
      have within : count + piece.length ≤ received.length := by omega
      have read := congrArg Endpoint.negotiation
        (greeting_read memory allowed address within (Nat.not_lt.mp inside))
      have first : (greeting allowed address received count).negotiation.ends memory (.read piece)
          = (greeted memory allowed address received (count + piece.length)).negotiation := by
        rw [← read, Endpoint.read]
        exact congrArg (fun bytes => (greeting allowed address received count).negotiation.ends
          memory (.read bytes)) taken.symm
      rw [first]
      split
      · rename_i complete
        have made := greeted_complete memory allowed address within (Nat.not_lt.mp inside) complete
        exact delivered_ended (by rw [made]; exact answered_not_reading memory _ _) rest
      · rename_i incomplete
        have waits := greeted_short memory allowed address within (Nat.not_lt.mp inside)
          (Nat.not_le.mp incomplete)
        rw [waits, List.flatten_cons, List.length_append, ← Nat.add_assoc]
        refine ih within (Nat.not_le.mp incomplete) (Nat.not_lt.mp inside) ⟨more, ?_⟩
        rw [← List.drop_drop, ← all, List.drop_left]

-----------------------------------------------------------------------------------------
-- What there is to see
-----------------------------------------------------------------------------------------

section Pieces

variable {pieces : List (List UInt8)} {first : UInt8} {methods : List UInt8}

theorem length_flatten_take (pieces : List (List UInt8)) (k : Nat)
    : (pieces.take k).flatten.length ≤ pieces.flatten.length := by
  have parts := congrArg (fun l => l.flatten.length) (List.take_append_drop k pieces)
  simp only [List.flatten_append, List.length_append] at parts
  omega

theorem greetingLength_pos (received : List UInt8) : 0 < greetingLength received :=
  Nat.succ_pos _

/-- Where the pieces of a greeting lead the server. -/
theorem delivered_greeting (memory : Uninitialised) (allowed : CString)
    (address : GInetSocketAddress) (pieces : List (List UInt8)) {received : List UInt8}
    (next : pieces.flatten <+: received)
    : (decision (greetingLength received) 0 pieces).State memory allowed address received
        pieces.flatten.length (delivered memory (socks5ServerNego allowed address) pieces) := by
  have state := delivered_state memory allowed address (Nat.zero_le received.length)
    (greetingLength_pos received) (Nat.zero_le _) next
  rw [Nat.zero_add] at state
  exact state

/-- A server that waits for ever. -/
theorem afterGreeting_waits
    (waits : (delivered memory (socks5ServerNego allowed address) pieces).next
      = .reading .negoMsg)
    : Over memory (afterGreeting memory allowed address pieces)
      ∧ (afterGreeting memory allowed address pieces).observed
        = some { replies := [], completion := none, unread := [] } := by
  refine ⟨over_of_starved (by simp only [afterGreeting, waits]; rfl) rfl, ?_⟩
  simp only [observed, afterGreeting, waits]

/-- A server that has no further meaning. -/
theorem afterGreeting_undefined {what : Undefined}
    (undefined : (delivered memory (socks5ServerNego allowed address) pieces).next
      = .undefined what)
    : Over memory (afterGreeting memory allowed address pieces)
      ∧ (afterGreeting memory allowed address pieces).observed = none := by
  refine ⟨over_of_ended (by simp only [afterGreeting, undefined]; rfl)
    (by simp only [afterGreeting, undefined]; rfl), ?_⟩
  simp only [observed, afterGreeting, undefined]

/-- A server that has decided after so many bytes. -/
theorem delivered_decides (memory : Uninitialised) (allowed : CString)
    (address : GInetSocketAddress) {count : Nat}
    (decides : decision (greetingLength pieces.flatten) 0 pieces = .decides count)
    : count ≤ pieces.flatten.length
      ∧ delivered memory (socks5ServerNego allowed address) pieces
        = answered memory (serverAt allowed address (pieces.flatten.take count))
            (serverParseNegoInit pieces.flatten count) := by
  have state := delivered_greeting memory allowed address pieces List.prefix_rfl
  have about := decision_about (greetingLength_pos pieces.flatten) (Nat.zero_le _) pieces
  rw [decides] at state about
  obtain ⟨complete, room, k, same, _⟩ := about
  have there : count ≤ pieces.flatten.length := by
    rw [same, Nat.zero_add]
    exact length_flatten_take pieces k
  exact ⟨there, state.trans (greeted_complete memory allowed address there room complete)⟩

-----------------------------------------------------------------------------------------
-- Another version
-----------------------------------------------------------------------------------------

/-- A greeting of another version. -/
theorem serverParseNegoInit_version (other : byteAt received 0 ≠ SOCKS5_VERSION) (count : Nat)
    : serverParseNegoInit received count
      = .error (.s5b .failed "The client is not a SOCKSv5 client.") := by
  rw [serverParseNegoInit, if_pos other]

/-- A greeting of another version fails only if a read ends inside the buffer and behind what the
server takes for the greeting.
-/
theorem failsUnanswered_iff (memory : Uninitialised) (allowed : CString)
    (address : GInetSocketAddress) (other : byteAt pieces.flatten 0 ≠ SOCKS5_VERSION)
    : FailsUnanswered memory allowed address pieces
      ↔ memory = .null
        ∧ ∃ k, greetingLength pieces.flatten ≤ (pieces.take k).flatten.length
          ∧ (pieces.take k).flatten.length ≤ SOCKS5_NEGO_MSG_LEN := by
  have state := delivered_greeting memory allowed address pieces List.prefix_rfl
  have about := decision_about (greetingLength_pos pieces.flatten) (Nat.zero_le _) pieces
  cases decided : decision (greetingLength pieces.flatten) 0 pieces with
  | waits =>
      rw [decided] at state about
      have next : (delivered memory (socks5ServerNego allowed address) pieces).next
          = .reading .negoMsg := by rw [state]; rfl
      obtain ⟨stopped, seen⟩ := afterGreeting_waits next
      constructor
      · intro fails
        obtain ⟨error, failed⟩ := fails _ .refl stopped
        cases seen.symm.trans failed
      · rintro ⟨_, k, complete, _⟩
        have short := about.1
        have below := length_flatten_take pieces k
        omega
  | overruns =>
      rw [decided] at state about
      obtain ⟨stopped, seen⟩ := afterGreeting_undefined state
      constructor
      · intro fails
        obtain ⟨error, failed⟩ := fails _ .refl stopped
        cases seen.symm.trans failed
      · rintro ⟨_, k, complete, room⟩
        have short := about.2 k (by omega)
        omega
  | decides count =>
      obtain ⟨_, made⟩ := delivered_decides memory allowed address decided
      rw [serverParseNegoInit_version other] at made
      rw [decided] at about
      obtain ⟨complete, room, k, same, _⟩ := about
      rw [Nat.zero_add] at same
      cases memory with
      | wild =>
          have undefined : (delivered .wild (socks5ServerNego allowed address) pieces).next
              = .undefined .uninitialised := by rw [made]; rfl
          obtain ⟨stopped, seen⟩ := afterGreeting_undefined undefined
          constructor
          · intro fails
            obtain ⟨error, failed⟩ := fails _ .refl stopped
            cases seen.symm.trans failed
          · rintro ⟨wild, _⟩
            cases wild
      | null =>
          refine ⟨fun _ => ⟨rfl, k, same ▸ complete, same ▸ room⟩, fun _ e' run stopped => ?_⟩
          have completed : (afterGreeting .null allowed address pieces).negotiation.next
              = .completed (.error (.s5b .failed "The client is not a SOCKSv5 client.")) := by
            simp only [afterGreeting, made]
            rfl
          have ended : Over .null (afterGreeting .null allowed address pieces) :=
            over_of_completed completed
          rw [ended.runs_eq run, observed_completed completed]
          exact ⟨_, rfl⟩

-----------------------------------------------------------------------------------------
-- Version 5
-----------------------------------------------------------------------------------------

/-- A greeting of version 5. -/
def greetingOf (methods : List UInt8) : List UInt8 :=
  SOCKS5_VERSION :: UInt8.ofNat methods.length :: methods

/-- The loop does not get to the methods of a greeting that has two of them at most. -/
theorem serverParseNegoInit_greetingOf (few : methods.length ≤ 2) (count : Nat)
    : serverParseNegoInit (greetingOf methods) count = .error noSupportedMethod := by
  have version : ¬byteAt (greetingOf methods) 0 ≠ SOCKS5_VERSION := fun other => other rfl
  have number : (byteAt (greetingOf methods) 1).toNat = methods.length := by
    change (UInt8.ofNat methods.length).toNat = methods.length
    rw [UInt8.toNat_ofNat']
    exact Nat.mod_eq_of_lt (by omega)
  have none : (List.range (min count (byteAt (greetingOf methods) 1).toNat)).any
      (fun i => decide (2 ≤ i) && byteAt (greetingOf methods) i == 0x00) = false := by
    rw [List.any_eq_false]
    intro i member
    rw [number, List.mem_range] at member
    have early : ¬2 ≤ i := by omega
    simp [early]
  rw [serverParseNegoInit, if_neg version, none]
  rfl

/-- A decision comes when the greeting is complete only if it has two methods at most, and the
first of them is smaller than their number.
-/
theorem decides_complete {count : Nat} (arrives : pieces.flatten = greetingOf methods)
    (offered : methods ≠ [])
    (decides : decision (greetingLength pieces.flatten) 0 pieces = .decides count)
    (waits : ∀ k, (pieces.take k).flatten.length < pieces.flatten.length →
      (delivered memory (socks5ServerNego allowed address) (pieces.take k)).next
        = .reading .negoMsg)
    : ∃ method rest, methods = method :: rest ∧ rest.length ≤ 1 ∧ method.toNat ≤ rest.length := by
  have about := decision_about (greetingLength_pos pieces.flatten) (Nat.zero_le _) pieces
  rw [decides] at about
  obtain ⟨complete, room, k, same, first⟩ := about
  rw [Nat.zero_add] at same
  -- the server that has decided does not read, so nothing is missing
  have whole : ¬(pieces.take k).flatten.length < pieces.flatten.length := by
    intro early
    have reading := waits k early
    have next : (pieces.take k).flatten <+: pieces.flatten :=
      ⟨(pieces.drop k).flatten, by rw [← List.flatten_append, List.take_append_drop]⟩
    have state := delivered_greeting memory allowed address (pieces.take k) next
    rw [first] at state
    have there : count ≤ pieces.flatten.length := same ▸ Nat.le_of_lt early
    have made := state.trans (greeted_complete memory allowed address there room complete)
    have ended := answered_not_reading memory
      (serverAt allowed address (pieces.flatten.take count))
      (serverParseNegoInit pieces.flatten count)
    rw [← made, reading] at ended
    cases ended
  rw [← same, arrives] at whole
  cases methods with
  | nil => exact absurd rfl offered
  | cons method rest =>
      have length : (greetingOf (method :: rest)).length = rest.length + 3 := rfl
      have asks : greetingLength pieces.flatten = method.toNat + 3 := by
        rw [arrives]
        rfl
      rw [asks] at complete
      rw [SOCKS5_NEGO_MSG_LEN] at room
      have there := length_flatten_take pieces k
      rw [arrives, ← same] at there
      exact ⟨method, rest, rfl, by omega, by omega⟩

/-- There is an answer. -/
theorem AnswersGreeting.replies (answers : AnswersGreeting memory allowed address methods pieces)
    {e' : Endpoint} (run : Runs memory (afterGreeting memory allowed address pieces) e')
    (stopped : Over memory e')
    : ∃ o, e'.observed = some o ∧ o.replies ≠ [] := by
  have answer := answers.answers e' run stopped
  split at answer
  · exact ⟨_, answer, List.cons_ne_nil _ _⟩
  · obtain ⟨error, answer⟩ := answer
    exact ⟨_, answer, List.cons_ne_nil _ _⟩

/-- A greeting is answered as it should be only if it offers two methods, the first of which is 1
and the second is not 0.
-/
theorem answersGreeting_iff (memory : Uninitialised) (allowed : CString)
    (address : GInetSocketAddress) (arrives : pieces.flatten = greetingOf methods)
    (offered : methods ≠ [])
    : AnswersGreeting memory allowed address methods pieces
      ↔ memory = .null ∧ ∃ method, method ≠ 0 ∧ methods = [1, method] := by
  have state := delivered_greeting memory allowed address pieces List.prefix_rfl
  constructor
  · intro answers
    cases decided : decision (greetingLength pieces.flatten) 0 pieces with
    | waits =>
        rw [decided] at state
        have next : (delivered memory (socks5ServerNego allowed address) pieces).next
            = .reading .negoMsg := by rw [state]; rfl
        obtain ⟨stopped, seen⟩ := afterGreeting_waits next
        obtain ⟨o, shown, replied⟩ := answers.replies .refl stopped
        cases seen.symm.trans shown
        exact absurd rfl replied
    | overruns =>
        rw [decided] at state
        obtain ⟨stopped, seen⟩ := afterGreeting_undefined state
        obtain ⟨o, shown, _⟩ := answers.replies .refl stopped
        cases seen.symm.trans shown
    | decides count =>
        obtain ⟨method, rest, rfl, few, small⟩ :=
          decides_complete arrives offered decided answers.waits
        obtain ⟨_, made⟩ := delivered_decides memory allowed address decided
        have two : (method :: rest).length ≤ 2 := Nat.succ_le_succ few
        rw [arrives, serverParseNegoInit_greetingOf two] at made
        cases memory with
        | wild =>
            have undefined : (delivered .wild (socks5ServerNego allowed address) pieces).next
                = .undefined .uninitialised := by rw [made]; rfl
            obtain ⟨stopped, seen⟩ := afterGreeting_undefined undefined
            obtain ⟨o, shown, _⟩ := answers.replies .refl stopped
            cases seen.symm.trans shown
        | null =>
            obtain ⟨e', run, stopped⟩ :=
              exists_over .null (afterGreeting .null allowed address pieces)
            have answer := answers.answers e' run stopped
            simp only [afterGreeting, made] at run
            have seen := refusing_observed _ run stopped
            rw [seen] at answer
            split at answer
            · cases answer
            rename_i missing
            rw [List.mem_cons, not_or] at missing
            have nonzero : method.toNat ≠ 0 := fun zero =>
              missing.1 (UInt8.toNat_inj.mp zero).symm
            have single : rest.length = 1 := by omega
            obtain ⟨second, rfl⟩ := List.length_eq_one_iff.mp single
            have one : method.toNat = 1 := by omega
            refine ⟨rfl, second, ?_, ?_⟩
            · exact fun zero => missing.2 (zero ▸ List.mem_singleton.mpr rfl)
            · rw [show method = 1 from UInt8.toNat_inj.mp one]
  · rintro ⟨rfl, method, other, rfl⟩
    have asks : greetingLength pieces.flatten = SOCKS5_NEGO_MSG_LEN := by
      rw [arrives]
      rfl
    have total : pieces.flatten.length = SOCKS5_NEGO_MSG_LEN := by
      rw [arrives]
      rfl
    refine ⟨fun k early => ?_, fun e' run stopped => ?_⟩
    · have next : (pieces.take k).flatten <+: pieces.flatten :=
        ⟨(pieces.drop k).flatten, by rw [← List.flatten_append, List.take_append_drop]⟩
      have state := delivered_greeting .null allowed address (pieces.take k) next
      have about := decision_about (greetingLength_pos pieces.flatten) (Nat.zero_le _)
        (pieces.take k)
      cases decided : decision (greetingLength pieces.flatten) 0 (pieces.take k) with
      | waits =>
          rw [decided] at state
          rw [state]
          rfl
      | decides count =>
          rw [decided] at about
          obtain ⟨complete, _, j, same, _⟩ := about
          have below := length_flatten_take (pieces.take k) j
          omega
      | overruns =>
          rw [decided] at about
          have beyond := about.1
          omega
    · have about := decision_about (greetingLength_pos pieces.flatten) (Nat.zero_le _) pieces
      cases decided : decision (greetingLength pieces.flatten) 0 pieces with
      | waits =>
          rw [decided] at about
          have short := about.1
          omega
      | overruns =>
          rw [decided] at about
          have beyond := about.1
          omega
      | decides count =>
          obtain ⟨_, made⟩ := delivered_decides .null allowed address decided
          have two : [1, method].length ≤ 2 := Nat.le_refl 2
          rw [arrives, serverParseNegoInit_greetingOf two] at made
          simp only [afterGreeting, made] at run
          have seen := refusing_observed _ run stopped
          have missing : 0 ∉ [1, method] := by
            simpa using fun zero => other zero.symm
          rw [if_neg missing]
          exact ⟨noSupportedMethod, seen⟩

end Pieces

/-- A greeting of version 5 is answered as it should be only if it offers the methods 1 and
another one that is not 0, and a greeting of another version fails without an answer only if a read
ends after three or four bytes that the code takes for a whole greeting. With an error variable
that is not NULL by chance, neither is.
-/
theorem greetings_answered (memory : Uninitialised) (allowed : CString)
    (address : GInetSocketAddress) (pieces : List (List UInt8)) (version : UInt8)
    (methods : List UInt8)
    (arrives : pieces.flatten = version :: UInt8.ofNat methods.length :: methods)
    (offered : methods ≠ [])
    : (version = SOCKS5_VERSION →
        (AnswersGreeting memory allowed address methods pieces
          ↔ memory = .null ∧ ∃ method, method ≠ 0 ∧ methods = [1, method]))
      ∧ (version ≠ SOCKS5_VERSION →
        (FailsUnanswered memory allowed address pieces
          ↔ memory = .null
            ∧ ∃ k, (byteAt methods 0).toNat + 3 ≤ (pieces.take k).flatten.length
              ∧ (pieces.take k).flatten.length ≤ SOCKS5_NEGO_MSG_LEN)) := by
  refine ⟨fun five => ?_, fun other => ?_⟩
  · subst five
    exact answersGreeting_iff memory allowed address arrives offered
  · have unlike : byteAt pieces.flatten 0 ≠ SOCKS5_VERSION := by
      rw [arrives]
      exact other
    have fails := failsUnanswered_iff memory allowed address unlike
    rw [greetingLength, arrives] at fails
    exact fails

/-- Two methods, none of them 0, arrive in two pieces. -/
theorem greetings_answered_two : AnswersGreeting .null hostA anyAddress [1, 2] [[5, 2], [1, 2]] :=
  ((greetings_answered .null hostA anyAddress [[5, 2], [1, 2]] 5 [1, 2] rfl (by decide)).1
    rfl).mpr ⟨rfl, 2, by decide, rfl⟩

/-- A greeting with the method 0 alone, read at once, is refused. -/
theorem offered_method_refused
    : (∃ e', Runs .null (afterGreeting .null hostA anyAddress [[5, 1, 0]]) e'
        ∧ e'.observed = some {
            replies := [0x05, 0xff], completion := some (.error noSupportedMethod)
            unread := [] })
      ∧ ¬AnswersGreeting .null hostA anyAddress [0] [[5, 1, 0]] := by
  obtain ⟨e', run, stopped⟩ := exists_over .null (afterGreeting .null hostA anyAddress [[5, 1, 0]])
  have made : delivered .null (socks5ServerNego hostA anyAddress) [[5, 1, 0]]
      = (serverAt hostA anyAddress [5, 1, 0]).build SOCKS5_NEGO_REP_LEN
          (serverSetNegoReplyMsg SOCKS5_AUTH_NO_ACCEPT) .noSupportedMethod := rfl
  have seen : e'.observed = some {
      replies := [0x05, 0xff], completion := some (.error noSupportedMethod), unread := [] } := by
    have refused := run
    simp only [afterGreeting, made] at refused
    exact refusing_observed _ refused stopped
  refine ⟨⟨e', run, seen⟩, fun answers => ?_⟩
  have answer := answers.answers e' run stopped
  rw [if_pos (List.mem_singleton.mpr rfl), seen] at answer
  cases answer

end McabberJingle.Socks5
