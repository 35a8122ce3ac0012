import Mathlib.Logic.Relation
import McabberJingle.Socks5.Negotiation

/-! A negotiation with the stream it reads from and the stream it writes to. Writes, and reads
that count what has arrived, can be cut at will: every run to the end passes through the state
in which all has been written or read.
-/

namespace McabberJingle.Socks5

open Relation

variable {memory : Uninitialised}

-----------------------------------------------------------------------------------------
-- Steps
-----------------------------------------------------------------------------------------

/-- A negotiation, what it has written, and what the other side sent and was not read yet. -/
structure Endpoint where
  negotiation : Negotiation
  output : List UInt8
  input : List UInt8

namespace Endpoint

/-- The next `count` bytes are written. -/
def wrote (memory : Uninitialised) (e : Endpoint) (count : Nat) : Endpoint where
  negotiation := e.negotiation.ends memory (.wrote count)
  output := e.output
    ++ (e.negotiation.data.buffer.drop e.negotiation.data.offset).take count
  input := e.input

/-- The next `count` bytes are read. -/
def read (memory : Uninitialised) (e : Endpoint) (count : Nat) : Endpoint where
  negotiation := e.negotiation.ends memory (.read (e.input.take count))
  output := e.output
  input := e.input.drop count

/-- The pending write or read ends with some bytes. -/
inductive Step (memory : Uninitialised) (e : Endpoint) : Endpoint → Prop
  | wrote (count : Nat) (writing : e.negotiation.next.isWriting = true) (some : 0 < count)
    (fits : count ≤ e.negotiation.wanted)
    : Step memory e (e.wrote memory count)
  | read (count : Nat) (reading : e.negotiation.next.isReading = true) (some : 0 < count)
    (fits : count ≤ e.negotiation.wanted) (there : count ≤ e.input.length)
    : Step memory e (e.read memory count)

/-- The endpoint can get from one state to the other. -/
abbrev Runs (memory : Uninitialised) : Endpoint → Endpoint → Prop :=
  ReflTransGen (Step memory)

/-- Nothing more happens. -/
def Over (memory : Uninitialised) (e : Endpoint) : Prop := ∀ e', ¬Step memory e e'

/-- What there is to see of a run: the replies, how it completed if it did, and the bytes that
were left unread.
-/
structure Observation where
  replies : List UInt8
  completion : Option Completion
  unread : List UInt8

/-- A run that has no further meaning cannot be observed. -/
def observed (e : Endpoint) : Option Observation :=
  match e.negotiation.next with
  | .undefined _ => none
  | .completed completion =>
      some { replies := e.output, completion := some completion, unread := e.input }
  | .reading _ => some { replies := e.output, completion := none, unread := e.input }
  | .writing _ => some { replies := e.output, completion := none, unread := e.input }

end Endpoint

-----------------------------------------------------------------------------------------
-- The callbacks by their shape
-----------------------------------------------------------------------------------------

/-- What a write callback does when everything is written. -/
def WriteCallback.done : WriteCallback → ConnectAsyncData → Negotiation
  | .negoMsg => ConnectAsyncData.expect SOCKS5_NEGO_REP_LEN SOCKS5_NEGO_REP_LEN .negoReply
  | .noSupportedMethod => ConnectAsyncData.completeAsyncFromError (.s5b .authFailed
      "The client did not offer any authentication method we support.")
  | .negoReply => ConnectAsyncData.expect SOCKS5_CONN_MSG_LEN 4 .connectMsg
  | .authMsg => ConnectAsyncData.expect SOCKS5_NEGO_REP_LEN SOCKS5_NEGO_REP_LEN .authReply
  | .connectMsg => ConnectAsyncData.expect SOCKS5_CONN_REP_LEN 4 .connectReply
  | .connectReply => ConnectAsyncData.complete

theorem WriteCallback.run_eq (callback : WriteCallback)
    : callback.run = ConnectAsyncData.written callback callback.done := by
  cases callback <;> rfl

theorem WriteCallback.done_notWriting (callback : WriteCallback) (data : ConnectAsyncData)
    : (callback.done data).next.isWriting = false := by
  cases callback <;> rfl

/-- Callbacks that count the bytes read so far. -/
def ReadCallback.counts : ReadCallback → Bool
  | .negoMsg => false
  | .connectAddrLen => false
  | .connectReplyAddrLen => false
  | _ => true

/-- The callback of the read that follows a short one. -/
def ReadCallback.again : ReadCallback → ReadCallback
  | .connectAddr => .connectReply
  | .connectReplyAddr => .connectReply
  | callback => callback

theorem ReadCallback.again_counts {callback : ReadCallback} (counts : callback.counts = true)
    : callback.again.counts = true := by
  cases callback <;> first | rfl | cases counts

/-- What a counting callback does when everything is read. -/
def ReadCallback.done (memory : Uninitialised) : ReadCallback → ConnectAsyncData → Negotiation
  | .negoReply => ConnectAsyncData.onNegoReply memory
  | .authReply => ConnectAsyncData.onAuthReply
  | .connectMsg => ConnectAsyncData.onConnectMsg
  | .connectAddr => ConnectAsyncData.onConnectAddr
  | .connectReply => ConnectAsyncData.onConnectReply
  | _ => ConnectAsyncData.complete

theorem ReadCallback.run_eq {callback : ReadCallback} (counts : callback.counts = true)
    : callback.run memory = ConnectAsyncData.filled callback.again (callback.done memory) := by
  cases callback with
  | negoMsg => cases counts
  | connectAddrLen => cases counts
  | connectReplyAddrLen => cases counts
  | _ => rfl

-----------------------------------------------------------------------------------------
-- Storing in pieces
-----------------------------------------------------------------------------------------

/-- The buffer after the bytes were stored. -/
def ConnectAsyncData.kept (data : ConnectAsyncData) (bytes : List UInt8) : ConnectAsyncData :=
  { data with
    buffer := data.buffer.take data.offset ++ bytes
      ++ data.buffer.drop (data.offset + bytes.length) }

/-- The same with the offset behind the bytes. -/
def ConnectAsyncData.received (data : ConnectAsyncData) (bytes : List UInt8)
    : ConnectAsyncData :=
  { data.kept bytes with offset := data.offset + bytes.length }

theorem ConnectAsyncData.length_received {data : ConnectAsyncData} {bytes : List UInt8}
    (room : data.offset + bytes.length ≤ data.buffer.length)
    : (data.received bytes).buffer.length = data.buffer.length := by
  simp only [received, kept, List.length_append, List.length_take, List.length_drop]
  omega

/-- Storing in two pieces is storing at once. -/
theorem ConnectAsyncData.received_received {data : ConnectAsyncData} {first second : List UInt8}
    (room : data.offset + first.length ≤ data.buffer.length)
    : (data.received first).received second = data.received (first ++ second) := by
  have front : (data.buffer.take data.offset ++ first).length = data.offset + first.length := by
    rw [List.length_append, List.length_take]
    omega
  have start : (data.received first).buffer.take (data.offset + first.length)
      = data.buffer.take data.offset ++ first := by
    rw [← front]
    exact List.take_left
  have rest : (data.received first).buffer.drop (data.offset + first.length + second.length)
      = data.buffer.drop (data.offset + (first ++ second).length) := by
    simp only [received, kept]
    rw [List.drop_append, front, List.drop_eq_nil_of_le (by rw [front]; exact Nat.le_add_right _ _),
      List.nil_append, List.drop_drop, List.length_append]
    congr 1
    omega
  have offset : data.offset + first.length + second.length
      = data.offset + (first ++ second).length := by
    rw [List.length_append, Nat.add_assoc]
  change { (data.received first) with
    buffer := (data.received first).buffer.take (data.offset + first.length) ++ second
      ++ (data.received first).buffer.drop (data.offset + first.length + second.length)
    offset := data.offset + first.length + second.length } = data.received (first ++ second)
  rw [start, rest, offset, List.append_assoc _ first second]
  rfl

/-- A read that fits the buffer is stored, and its callback runs. -/
theorem Negotiation.ends_read (memory : Uninitialised) {n : Negotiation}
    {callback : ReadCallback} (reading : n.next = .reading callback) (bytes : List UInt8)
    (room : n.data.offset + bytes.length ≤ n.data.buffer.length)
    : n.ends memory (.read bytes) = callback.run memory (n.data.kept bytes) bytes.length := by
  simp only [Negotiation.ends, reading, ConnectAsyncData.store, if_pos room]
  rfl

theorem ConnectAsyncData.filled_kept (data : ConnectAsyncData) (again : ReadCallback)
    (done : ConnectAsyncData → Negotiation) (bytes : List UInt8)
    : filled again done (data.kept bytes) bytes.length
      = if data.offset + bytes.length = data.length then
          done (data.received bytes)
        else
          (data.received bytes).doRead again :=
  rfl

-----------------------------------------------------------------------------------------
-- Runs that are over
-----------------------------------------------------------------------------------------

namespace Endpoint

variable {e e' : Endpoint}

theorem over_of_ended (reading : e.negotiation.next.isReading = false)
    (writing : e.negotiation.next.isWriting = false)
    : Over memory e := by
  intro e' step
  cases step with
  | wrote count isWriting => exact absurd isWriting (by simp [writing])
  | read count isReading => exact absurd isReading (by simp [reading])

theorem over_of_starved (reading : e.negotiation.next.isReading = true) (starved : e.input = [])
    : Over memory e := by
  intro e' step
  cases step with
  | wrote count isWriting =>
      cases next : e.negotiation.next <;>
        simp [next, Next.isReading, Next.isWriting] at reading isWriting
  | read count isReading some fits there =>
      rw [starved] at there
      exact absurd some (Nat.not_lt.mpr there)

/-- A run from where nothing more happens stays there. -/
theorem Over.runs_eq (stopped : Over memory e) (run : Runs memory e e') : e' = e := by
  cases run.cases_head with
  | inl same => exact same.symm
  | inr first =>
      obtain ⟨next, step, _⟩ := first
      exact absurd step (stopped next)

/-- Bytes still to be written in the pending write. -/
def unwritten (e : Endpoint) : Nat :=
  if e.negotiation.next.isWriting then e.negotiation.wanted else 0

/-- A step reads something, or has less to write. -/
theorem Step.decreases (step : Step memory e e')
    : e'.input.length < e.input.length
      ∨ e'.input.length = e.input.length ∧ e'.unwritten < e.unwritten := by
  cases step with
  | read count reading some fits there =>
      refine Or.inl ?_
      simp only [Endpoint.read, List.length_drop]
      omega
  | wrote count writing some fits =>
      refine Or.inr ⟨rfl, ?_⟩
      have before : e.unwritten = e.negotiation.wanted := by
        rw [unwritten, if_pos writing]
      rw [before]
      obtain ⟨⟨data, next⟩, output, input⟩ := e
      cases next with
      | reading callback => cases writing
      | completed completion => cases writing
      | undefined what => cases writing
      | writing callback =>
          simp only [unwritten, Endpoint.wrote, Negotiation.ends, callback.run_eq,
            ConnectAsyncData.written, Negotiation.wanted] at some fits ⊢
          by_cases all : data.offset + count = data.length
          · simp only [if_pos all, callback.done_notWriting]
            exact Nat.lt_of_lt_of_le some fits
          · simp only [if_neg all, ConnectAsyncData.doWrite, Next.isWriting, if_true]
            omega

/-- Every run can be continued until it is over. -/
theorem exists_over (memory : Uninitialised) (e : Endpoint)
    : ∃ e', Runs memory e e' ∧ Over memory e' := by
  by_cases stopped : Over memory e
  · exact ⟨e, .refl, stopped⟩
  · simp only [Over, Classical.not_forall, Classical.not_not] at stopped
    obtain ⟨next, step⟩ := stopped
    have decreases := step.decreases
    obtain ⟨e', run, ends⟩ := exists_over memory next
    exact ⟨e', .head step run, ends⟩
termination_by (e.input.length, e.unwritten)
decreasing_by
  rcases decreases with less | ⟨same, less⟩
  · exact Prod.Lex.left _ _ less
  · rw [same]
    exact Prod.Lex.right _ less

/-- Bytes that were read stay read. -/
theorem Runs.input_le (run : Runs memory e e') : e'.input.length ≤ e.input.length := by
  induction run with
  | refl => exact Nat.le_refl _
  | tail _ step ih =>
      rcases step.decreases with less | ⟨same, _⟩
      · exact Nat.le_trans (Nat.le_of_lt less) ih
      · exact Nat.le_trans (Nat.le_of_eq same) ih

-----------------------------------------------------------------------------------------
-- Passing through
-----------------------------------------------------------------------------------------

/-- The pending write with all its bytes. -/
abbrev flush (memory : Uninitialised) (e : Endpoint) : Endpoint :=
  e.wrote memory e.negotiation.wanted

/-- The pending read with all the bytes it asks for. -/
abbrev fill (memory : Uninitialised) (e : Endpoint) : Endpoint :=
  e.read memory e.negotiation.wanted

theorem runs_flush (writing : e.negotiation.next.isWriting = true)
    (some : 0 < e.negotiation.wanted)
    : Runs memory e (e.flush memory) :=
  .single (.wrote _ writing some (Nat.le_refl _))

theorem runs_fill (reading : e.negotiation.next.isReading = true)
    (some : 0 < e.negotiation.wanted) (there : e.negotiation.wanted ≤ e.input.length)
    : Runs memory e (e.fill memory) :=
  .single (.read _ reading some (Nat.le_refl _) there)

/-- Some bytes are written. -/
theorem wrote_eq (memory : Uninitialised) {callback : WriteCallback}
    (writing : e.negotiation.next = .writing callback) (count : Nat)
    : e.wrote memory count = {
        negotiation :=
          if e.negotiation.data.offset + count = e.negotiation.data.length then
            callback.done { e.negotiation.data with offset := e.negotiation.data.offset + count }
          else
            { e.negotiation.data with
              offset := e.negotiation.data.offset + count }.doWrite callback
        output := e.output
          ++ (e.negotiation.data.buffer.drop e.negotiation.data.offset).take count
        input := e.input } := by
  simp only [wrote, Negotiation.ends, writing, callback.run_eq, ConnectAsyncData.written]

/-- Everything is written. -/
theorem flush_eq {callback : WriteCallback} (writing : e.negotiation.next = .writing callback)
    (begun : e.negotiation.data.offset ≤ e.negotiation.data.length)
    : e.flush memory = {
        negotiation := callback.done
          { e.negotiation.data with offset := e.negotiation.data.length }
        output := e.output
          ++ (e.negotiation.data.buffer.drop e.negotiation.data.offset).take e.negotiation.wanted
        input := e.input } := by
  have all : e.negotiation.data.offset + (e.negotiation.data.length - e.negotiation.data.offset)
      = e.negotiation.data.length := by omega
  rw [flush, wrote_eq memory writing]
  simp only [Negotiation.wanted, all, if_true]

/-- A write that leaves some of its bytes is taken up again where it stopped. -/
theorem flush_wrote (memory : Uninitialised) {callback : WriteCallback}
    (writing : e.negotiation.next = .writing callback)
    {count : Nat} (short : count < e.negotiation.wanted)
    : (e.wrote memory count).negotiation.next = .writing callback
      ∧ 0 < (e.wrote memory count).negotiation.wanted
      ∧ (e.wrote memory count).flush memory = e.flush memory := by
  obtain ⟨⟨data, next⟩, output, input⟩ := e
  cases writing
  simp only [Negotiation.wanted] at short
  have unfinished : ¬data.offset + count = data.length := by omega
  have left : wrote memory ⟨{ data, next := .writing callback }, output, input⟩ count = {
        negotiation := { data with offset := data.offset + count }.doWrite callback
        output := output ++ (data.buffer.drop data.offset).take count
        input } := by
    rw [wrote_eq memory rfl, if_neg unfinished]
  rw [left]
  refine ⟨rfl, ?_, ?_⟩
  · simp only [ConnectAsyncData.doWrite, Negotiation.wanted]
    omega
  · have begun : data.offset ≤ data.length := by omega
    have begun' : data.offset + count ≤ data.length := by omega
    rw [flush_eq (e := ⟨{ data, next := .writing callback }, output, input⟩) rfl begun]
    rw [flush_eq (e := ⟨_, _, input⟩) rfl begun']
    simp only [ConnectAsyncData.doWrite, Negotiation.wanted, List.append_assoc]
    rw [← List.drop_drop, ← List.take_add]
    congr 3
    omega

/-- Steps that write some of the bytes when a write is pending, and can write all of them. -/
structure Writes (memory : Uninitialised) (steps : Endpoint → Endpoint → Prop) : Prop where
  all : ∀ {e}, e.negotiation.next.isWriting = true → 0 < e.negotiation.wanted →
    steps e (e.flush memory)
  some : ∀ {e e'}, e.negotiation.next.isWriting = true → steps e e' →
    ∃ count ≤ e.negotiation.wanted, e' = e.wrote memory count

/-- By induction on the run: what follows a write follows it when all is written. -/
theorem Writes.through {steps : Endpoint → Endpoint → Prop} (writes : Writes memory steps)
    {callback : WriteCallback} (writing : e.negotiation.next = .writing callback)
    (some : 0 < e.negotiation.wanted) (run : ReflTransGen steps e e')
    (stopped : ∀ next, ¬steps e' next)
    : ReflTransGen steps (e.flush memory) e' := by
  induction run using ReflTransGen.head_induction_on with
  | refl =>
      have isWriting : e'.negotiation.next.isWriting = true := by rw [writing]; rfl
      exact absurd (writes.all isWriting some) (stopped _)
  | @head e₀ e₁ step rest ih =>
      have isWriting : e₀.negotiation.next.isWriting = true := by rw [writing]; rfl
      obtain ⟨count, fits, rfl⟩ := writes.some isWriting step
      by_cases whole : count = e₀.negotiation.wanted
      · subst whole
        exact rest
      · obtain ⟨again, more, same⟩ := flush_wrote memory writing (Nat.lt_of_le_of_ne fits whole)
        exact same ▸ ih again more

theorem step_writes (memory : Uninitialised) : Writes memory (Step memory) where
  all writing some := .wrote _ writing some (Nat.le_refl _)
  some := by
    intro e e' writing step
    cases step with
    | wrote count _ _ fits => exact ⟨count, fits, rfl⟩
    | read count reading =>
        cases next : e.negotiation.next <;>
          simp [next, Next.isReading, Next.isWriting] at reading writing

theorem through_flush {callback : WriteCallback} (writing : e.negotiation.next = .writing callback)
    (some : 0 < e.negotiation.wanted) (run : Runs memory e e') (stopped : Over memory e')
    : Runs memory (e.flush memory) e' :=
  (step_writes memory).through writing some run stopped

/-- A read whose callback counts what has arrived, into a buffer that has room for it. -/
structure Counted (e : Endpoint) (callback : ReadCallback) : Prop where
  reading : e.negotiation.next = .reading callback
  counts : callback.counts = true
  offset : e.negotiation.data.offset < e.negotiation.data.length

theorem Counted.isReading {callback : ReadCallback} (counted : Counted e callback)
    : e.negotiation.next.isReading = true := by
  rw [counted.reading]
  rfl

theorem Counted.wanted_pos {callback : ReadCallback} (counted : Counted e callback)
    : 0 < e.negotiation.wanted :=
  Nat.sub_pos_of_lt counted.offset

/-- A counted read of some bytes. -/
theorem Counted.read_eq {callback : ReadCallback} (counted : Counted e callback) {count : Nat}
    (there : count ≤ e.input.length)
    (room : e.negotiation.data.offset + count ≤ e.negotiation.data.buffer.length)
    : e.read memory count = {
        negotiation :=
          if e.negotiation.data.offset + count = e.negotiation.data.length then
            callback.done memory (e.negotiation.data.received (e.input.take count))
          else
            (e.negotiation.data.received (e.input.take count)).doRead callback.again
        output := e.output
        input := e.input.drop count } := by
  have length : (e.input.take count).length = count := List.length_take_of_le there
  have ends := Negotiation.ends_read memory counted.reading (e.input.take count)
    (by rw [length]; exact room)
  rw [Endpoint.read, ends, ReadCallback.run_eq counted.counts, ConnectAsyncData.filled_kept, length]

/-- A short counted read goes on counting. -/
theorem Counted.short (memory : Uninitialised) {callback : ReadCallback}
    (counted : Counted e callback) {count : Nat}
    (there : count ≤ e.input.length) (short : count < e.negotiation.wanted)
    (room : e.negotiation.data.offset + count ≤ e.negotiation.data.buffer.length)
    : Counted (e.read memory count) callback.again
      ∧ (e.read memory count).negotiation.data = e.negotiation.data.received (e.input.take count)
      ∧ (e.read memory count).negotiation.data.offset = e.negotiation.data.offset + count := by
  have unfinished : ¬e.negotiation.data.offset + count = e.negotiation.data.length := by
    simp only [Negotiation.wanted] at short
    omega
  have offset : (e.negotiation.data.received (e.input.take count)).offset
      = e.negotiation.data.offset + count := by
    simp only [ConnectAsyncData.received, List.length_take_of_le there]
  rw [counted.read_eq there room, if_neg unfinished]
  refine ⟨⟨rfl, ReadCallback.again_counts counted.counts, ?_⟩, rfl, offset⟩
  simp only [ConnectAsyncData.doRead]
  rw [offset]
  simp only [Negotiation.wanted] at short
  have length : (e.negotiation.data.received (e.input.take count)).length
      = e.negotiation.data.length := rfl
  omega

/-- By induction on the run: a counted read that gets too little waits for ever. -/
theorem starves {callback : ReadCallback} (counted : Counted e callback)
    (little : e.input.length < e.negotiation.wanted)
    (room : e.negotiation.data.offset + e.input.length ≤ e.negotiation.data.buffer.length)
    (run : Runs memory e e') (stopped : Over memory e')
    : e'.observed = some { replies := e.output, completion := none, unread := [] } := by
  induction run using ReflTransGen.head_induction_on generalizing callback with
  | refl =>
      cases input : e'.input with
      | nil => simp only [observed, counted.reading, input]
      | cons byte rest =>
          have first : Step memory e' (e'.read memory 1) :=
            .read 1 counted.isReading (by decide) counted.wanted_pos (by rw [input]; simp)
          exact absurd first (stopped _)
  | @head e₀ e₁ step rest ih =>
      cases step with
      | wrote count isWriting => rw [counted.reading] at isWriting; cases isWriting
      | read count isReading some fits there =>
          have short : count < e₀.negotiation.wanted := Nat.lt_of_le_of_lt there little
          have room₁ : e₀.negotiation.data.offset + count ≤ e₀.negotiation.data.buffer.length := by
            omega
          obtain ⟨counted', data, offset⟩ := counted.short memory there short room₁
          refine ih counted' ?_ ?_
          · simp only [Negotiation.wanted] at little ⊢
            rw [offset, data, Endpoint.read, List.length_drop]
            have length : (e₀.negotiation.data.received (e₀.input.take count)).length
                = e₀.negotiation.data.length := rfl
            omega
          · rw [offset, data, ConnectAsyncData.length_received
              (by rw [List.length_take_of_le there]; exact room₁), Endpoint.read, List.length_drop]
            omega

/-- A counted read of everything it asks for. -/
theorem Counted.fill_eq {callback : ReadCallback} (counted : Counted e callback)
    (there : e.negotiation.wanted ≤ e.input.length)
    (room : e.negotiation.data.length ≤ e.negotiation.data.buffer.length)
    : e.fill memory = {
        negotiation :=
          callback.done memory (e.negotiation.data.received (e.input.take e.negotiation.wanted))
        output := e.output
        input := e.input.drop e.negotiation.wanted } := by
  have all : e.negotiation.data.offset + e.negotiation.wanted = e.negotiation.data.length :=
    Nat.add_sub_cancel' (Nat.le_of_lt counted.offset)
  rw [fill, counted.read_eq there (by rw [all]; exact room), if_pos all]

/-- Reading the rest after a short read is reading everything at once. -/
theorem Counted.fill_read (memory : Uninitialised) {callback : ReadCallback}
    (counted : Counted e callback)
    (exact : callback.again = callback) {count : Nat} (short : count < e.negotiation.wanted)
    (there : e.negotiation.wanted ≤ e.input.length)
    (room : e.negotiation.data.length ≤ e.negotiation.data.buffer.length)
    : Counted (e.read memory count) callback
      ∧ (e.read memory count).negotiation.wanted ≤ (e.read memory count).input.length
      ∧ (e.read memory count).negotiation.data.length
        ≤ (e.read memory count).negotiation.data.buffer.length
      ∧ (e.read memory count).fill memory = e.fill memory := by
  have within : count ≤ e.input.length := Nat.le_trans (Nat.le_of_lt short) there
  have begun := counted.offset
  have fits : e.negotiation.data.offset + count ≤ e.negotiation.data.buffer.length := by
    simp only [Negotiation.wanted] at short
    omega
  obtain ⟨counted', data, offset⟩ := counted.short memory within short fits
  rw [exact] at counted'
  have piece : (e.input.take count).length = count := List.length_take_of_le within
  have length : (e.read memory count).negotiation.data.length = e.negotiation.data.length := by
    rw [data]
    rfl
  have wanted : (e.read memory count).negotiation.wanted = e.negotiation.wanted - count := by
    simp only [Negotiation.wanted, offset, length]
    omega
  have there' : (e.read memory count).negotiation.wanted ≤ (e.read memory count).input.length := by
    rw [wanted, Endpoint.read, List.length_drop]
    omega
  have room' : (e.read memory count).negotiation.data.length
      ≤ (e.read memory count).negotiation.data.buffer.length := by
    rw [length, data, ConnectAsyncData.length_received (by rw [piece]; exact fits)]
    exact room
  refine ⟨counted', there', room', ?_⟩
  rw [counted'.fill_eq there' room', counted.fill_eq there room, wanted, data]
  have pieces : e.input.take count ++ (e.input.drop count).take (e.negotiation.wanted - count)
      = e.input.take e.negotiation.wanted := by
    rw [← List.take_add]
    congr 1
    omega
  have rest : (e.input.drop count).drop (e.negotiation.wanted - count)
      = e.input.drop e.negotiation.wanted := by
    rw [List.drop_drop]
    congr 1
    omega
  simp only [Endpoint.read]
  rw [ConnectAsyncData.received_received (by rw [piece]; exact fits), pieces, rest]

/-- By induction on the run: what follows a counted read with the right continuation follows it
when everything is read at once.
-/
theorem through_fill {callback : ReadCallback} (counted : Counted e callback)
    (exact : callback.again = callback) (there : e.negotiation.wanted ≤ e.input.length)
    (room : e.negotiation.data.length ≤ e.negotiation.data.buffer.length)
    (run : Runs memory e e') (stopped : Over memory e')
    : Runs memory (e.fill memory) e' := by
  induction run using ReflTransGen.head_induction_on with
  | refl =>
      exact absurd (.read _ counted.isReading counted.wanted_pos (Nat.le_refl _) there) (stopped _)
  | @head e₀ e₁ step rest ih =>
      cases step with
      | wrote count isWriting => rw [counted.reading] at isWriting; cases isWriting
      | read count isReading some fits there' =>
          by_cases all : count = e₀.negotiation.wanted
          · subst all
            exact rest
          · obtain ⟨counted', there₁, room₁, same⟩ := counted.fill_read memory exact
              (Nat.lt_of_le_of_ne fits all) there room
            exact same ▸ ih counted' there₁ room₁

/-- A read of a single byte cannot be cut. -/
theorem through_byte (reading : e.negotiation.next.isReading = true)
    (single : e.negotiation.wanted = 1) (there : e.input ≠ []) (run : Runs memory e e')
    (stopped : Over memory e')
    : Runs memory (e.fill memory) e' := by
  have enough : 1 ≤ e.input.length := List.length_pos_iff.mpr there
  cases run.cases_head with
  | inl same =>
      subst same
      exact absurd (.read 1 reading (by decide) (Nat.le_of_eq single.symm) enough) (stopped _)
  | inr first =>
      obtain ⟨next, step, rest⟩ := first
      cases step with
      | wrote count isWriting =>
          cases is : e.negotiation.next <;>
            simp [is, Next.isReading, Next.isWriting] at reading isWriting
      | read count isReading some fits =>
          have one : count = e.negotiation.wanted := by omega
          subst one
          exact rest

end Endpoint

end McabberJingle.Socks5
