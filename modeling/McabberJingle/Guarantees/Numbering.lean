import McabberJingle.Effects.Machine
import McabberJingle.System.Execution
import McabberJingle.Transfer.Course

/-! The sequence numbers of data packets: the k-th packet of a stream carries k, which does
not wrap.
-/

namespace McabberJingle

open Program Program.Prog

-----------------------------------------------------------------------------------------
-- The packets of a stream
-----------------------------------------------------------------------------------------

/-- The data packets sent on the stream at `t`, in order. -/
def State.packetsOn (s : State) (t : TransportPtr) : List LmMessage :=
  (s.packets.filter (fun entry => entry.1 == t)).map Prod.snd

/-- The sequence number that a data packet carries. -/
def LmMessage.seq? (iq : LmMessage) : Option String :=
  (iq.node.getChild "data").bind (fun data => data.getAttribute "seq")

/-- The data packet that was sent. -/
def Sent.packet? : Sent → Option LmMessage
  | .request _ iq => if iq.isData then some iq else none
  | .reply _ _ => none

theorem State.packetsOn_append {s s' : State} {t' : TransportPtr} {iq : LmMessage}
    (logged : s'.packets = s.packets ++ [(t', iq)]) (t : TransportPtr)
    : s'.packetsOn t = if t' = t then s.packetsOn t ++ [iq] else s.packetsOn t := by
  unfold State.packetsOn
  rw [logged, List.filter_append, List.map_append]
  by_cases here : t' = t
  · rw [if_pos here, List.filter_cons_of_pos (by simp [here]), List.filter_nil]
    rfl
  · rw [if_neg here, List.filter_cons_of_neg (by simp [here]), List.filter_nil]
    exact List.append_nil _

@[simp]
theorem ibbDataIq_seq? (env : Env) (recipient : String) (buf : List UInt8) (sid : String)
    (seq : Nat)
    : (ibbDataIq env recipient buf sid seq).seq? = some (toString seq) := by
  simp [LmMessage.seq?, ibbDataIq, LmMessageNode.getChild, LmMessageNode.getAttribute, textElement]

@[simp]
theorem ibbDataIq_isData (env : Env) (recipient : String) (buf : List UInt8) (sid : String)
    (seq : Nat)
    : (ibbDataIq env recipient buf sid seq).isData = true := by
  simp [LmMessage.isData, ibbDataIq, LmMessageNode.getChild, textElement]

/-- The first `n` numbers, as packets carry them. -/
def countingUp (n : Nat) : List (Option String) := (List.range n).map (fun k => some (toString k))

theorem countingUp_succ (n : Nat) : countingUp (n + 1) = countingUp n ++ [some (toString n)] := by
  simp [countingUp, List.range_succ]

/-- The packets of each stream are numbered from 0 on, and the stream knows the next number;
all the data that was sent is packets of streams.
-/
structure Numbered (s : State) : Prop where
  known : ∀ entry ∈ s.packets, entry.1 < s.transports.next
  next : ∀ t jibb, s.transports.get? t = some (.ibb jibb) → jibb.seq = (s.packetsOn t).length
  numbers : ∀ t, (s.packetsOn t).map LmMessage.seq? = countingUp (s.packetsOn t).length
  sent : s.sent.filterMap Sent.packet? = s.packets.map Prod.snd

theorem initial_numbered (s : State) (initial : Initial s) : Numbered s := by
  have none (t : TransportPtr) : s.packetsOn t = [] := by
    rw [State.packetsOn, initial.packets]
    rfl
  refine ⟨?_, ?_, ?_, ?_⟩
  · intro entry member
    rw [initial.packets] at member
    cases member
  · intro t jibb found
    rw [initial.transports] at found
    cases found
  · intro t
    rw [none t]
    rfl
  · rw [initial.sent, initial.packets]
    rfl

/-- Nothing was sent on a stream that is not there yet. -/
theorem Numbered.unsent {s : State} (numbered : Numbered s) {t : TransportPtr}
    (new : s.transports.next ≤ t)
    : s.packetsOn t = [] := by
  unfold State.packetsOn
  rw [List.filter_eq_nil_iff.mpr, List.map_nil]
  intro entry member here
  have known := numbered.known entry member
  rw [eq_of_beq here] at known
  exact absurd new (Nat.not_le.mpr known)

section Effect

variable {r : Rights} {s s' : State}

/-- Without a packet the streams keep their numbers, or are new. -/
theorem Numbered.quiet (numbered : Numbered s) (effect : Effect r s s')
    (packets : s'.packets = s.packets)
    (sent : s'.sent.filterMap Sent.packet? = s.sent.filterMap Sent.packet?)
    : Numbered s' := by
  have same (t : TransportPtr) : s'.packetsOn t = s.packetsOn t := by
    rw [State.packetsOn, packets]
    rfl
  refine ⟨?known, ?next, ?numbers, ?sent⟩
  case known =>
    intro entry member
    rw [packets] at member
    exact Nat.lt_of_lt_of_le (numbered.known entry member) (since_effect effect).transports
  case next =>
    intro t jibb' after
    rw [same]
    cases transport_effect effect after with
    | same before => exact numbered.next t jibb' before
    | rewritten old before allowed buffered kept =>
        obtain ⟨jibb, rfl, stream⟩ := kept jibb' rfl
        exact stream.seq.trans (numbered.next t jibb before)
    | sent jibb before next logged => exact absurd packets logged
    | made fresh empty stream =>
        rw [(stream jibb' rfl).1, numbered.unsent (Nat.le_of_eq fresh.symm)]
        rfl
  case numbers =>
    intro t
    rw [same]
    exact numbered.numbers t
  case sent => rw [sent, packets, numbered.sent]

/-- A packet takes the next number of its stream. -/
theorem Numbered.packet (numbered : Numbered s) {t : TransportPtr} {jibb : JingleIBB}
    (found : s.transports.get? t = some (.ibb jibb)) {ident : SessionIdent} {iq : LmMessage}
    (data : iq.isData = true) (seq : iq.seq? = some (toString jibb.seq))
    (packets : s'.packets = s.packets ++ [(t, iq)])
    (transports : s'.transports
      = s.transports.modify t (fun _ => .ibb { jibb with seq := jibb.seq + 1 }))
    (sent : s'.sent = s.sent ++ [.request ident iq])
    : Numbered s' := by
  have logged := State.packetsOn_append packets
  refine ⟨?known, ?next, ?numbers, ?sent⟩
  case known =>
    intro entry member
    rw [transports, Pool.next_modify]
    rw [packets] at member
    rcases List.mem_append.mp member with old | new
    · exact numbered.known entry old
    · rw [List.mem_singleton.mp new]
      exact Pool.lt_next found
  case next =>
    intro t' jibb' after
    rw [transports] at after
    obtain ⟨old, before, same⟩ := Pool.get?_modify_eq_some.mp after
    rw [logged t']
    by_cases here : t' = t
    · subst here
      rw [if_pos rfl] at same
      cases same
      rw [if_pos rfl, List.length_append, ← numbered.next t' jibb found]
      rfl
    · rw [if_neg here] at same
      subst same
      rw [if_neg (fun h => here h.symm)]
      exact numbered.next t' jibb' before
  case numbers =>
    intro t'
    rw [logged t']
    by_cases here : t = t'
    · subst here
      rw [if_pos rfl, List.map_append, List.length_append, List.length_singleton, countingUp_succ,
        numbered.numbers t, ← numbered.next t jibb found]
      simp [seq]
    · rw [if_neg here]
      exact numbered.numbers t'
  case sent =>
    rw [sent, packets, List.filterMap_append, List.map_append, numbered.sent]
    simp [Sent.packet?, data]

end Effect

/-- By cases on the change: only a packet counts. -/
theorem numbered_stable (r : Rights) : Stable r Numbered := by
  intro s s' numbered effect
  have quiet := numbered.quiet effect
  cases effect with
  | packet p js t jibb sc env buf listed carries found =>
      exact numbered.packet found (ibbDataIq_isData ..) (ibbDataIq_seq? ..) rfl rfl rfl
  | finish p js reason =>
      refine quiet rfl ?_
      simp [State.requested, List.filterMap_append, Sent.packet?]
  | request p js iq callback timeout sendOk listed request timed plain =>
      refine quiet rfl ?_
      cases sendOk with
      | false => rfl
      | true => simp [State.requested, List.filterMap_append, Sent.packet?, plain]
  | reply query answer =>
      refine quiet rfl ?_
      simp [List.filterMap_append, Sent.packet?]
  | _ => exact quiet rfl rfl

theorem numbered_reached {env : Env} {allowed : State → StepInput → Prop} {s : State}
    (run : ReachableBy env allowed s)
    : Numbered s :=
  stable_reached (numbered_stable .all) initial_numbered run

/-- The k-th packet of a stream carries k. -/
theorem Numbered.seq_eq {s : State} (numbered : Numbered s) {t : TransportPtr} {k : Nat}
    {iq : LmMessage} (taken : (s.packetsOn t)[k]? = some iq)
    : iq.seq? = some (toString k) := by
  have below : k < (s.packetsOn t).length := (List.getElem?_eq_some_iff.mp taken).1
  have read : ((s.packetsOn t).map LmMessage.seq?)[k]? = some iq.seq? := by
    rw [List.getElem?_map, taken]
    rfl
  rw [numbered.numbers t, countingUp, List.getElem?_map, List.getElem?_range below] at read
  exact (Option.some.inj read).symm

/-- The data that was sent is the packets of the streams, and those of a stream are numbered
modulo 2^16 if and only if there are at most 2^16 of them.
-/
theorem packets_numbered (env : Env) (s : State) (run : Reachable env s)
    : s.sent.filterMap Sent.packet? = s.packets.map Prod.snd
      ∧ ∀ t, (∀ k iq, (s.packetsOn t)[k]? = some iq → iq.seq? = some (toString (k % 65536)))
          ↔ (s.packetsOn t).length ≤ 65536 := by
  have numbered := numbered_reached run
  refine ⟨numbered.sent, fun t => ⟨fun wraps => ?_, fun short k iq taken => ?_⟩⟩
  · by_contra long
    have there := List.getElem?_eq_getElem (Nat.not_le.mp long)
    have wrapped := wraps 65536 _ there
    rw [numbered.seq_eq there] at wrapped
    revert wrapped
    decide
  · have below : k < (s.packetsOn t).length := (List.getElem?_eq_some_iff.mp taken).1
    rw [Nat.mod_eq_of_lt (Nat.lt_of_lt_of_le below short)]
    exact numbered.seq_eq taken

/-- The first packet of a file of four bytes carries 0. -/
theorem packets_numbered_fourBytes
    : ∃ s, Reachable fileEnv s ∧ (s.packetsOn 0).length = 1
        ∧ ∀ k iq, (s.packetsOn 0)[k]? = some iq → iq.seq? = some (toString (k % 65536)) := by
  have passed : (execute fileEnv (fun _ _ => True) loaded (acceptedOffer fourBytes
      ++ [(plainWorld, .transportInitialize true { owner := 0, name := "file" })])).any
      (fun s => (s.packetsOn 0).length == 1) = true := by
    decide +kernel
  obtain ⟨s, run, one⟩ := execute_any _ (loaded_reached fileEnv _) passed
  have one : (s.packetsOn 0).length = 1 := eq_of_beq one
  refine ⟨s, run, one, ((packets_numbered fileEnv s run).2 0).mpr ?_⟩
  rw [one]
  decide

-----------------------------------------------------------------------------------------
-- Long streams
-----------------------------------------------------------------------------------------

/-- The transfer is under way: `n` full blocks were sent, and the last of them waits for its
reply.
-/
inductive Flowing (env : Env) (x : ReadyTransfer) (n : Nat) (s : State) : Prop
  | mk {sc : SessionContent} {ft : JingleFT} {jibb : JingleIBB} {reads : List ReadResult}
    {blocks : List (List UInt8)} {ah : AckPtr}
    (holding : Holding env x s sc ft jibb reads blocks) (waiting : Waiting x.ref s [ah])
    (steady : Steady reads) (blocksize : jibb.blocksize = x.jibb.blocksize)
    (full : ∀ block ∈ blocks, block.length = x.jibb.blocksize) (count : blocks.length = n)

section Flow

variable {env : Env} {x : ReadyTransfer} {s s' : State} {n : Nat}

theorem length_flatten_full {size : Nat} {blocks : List (List UInt8)}
    (full : ∀ block ∈ blocks, block.length = size)
    : blocks.flatten.length = blocks.length * size := by
  rw [List.length_flatten, List.map_congr_left full]
  simp

/-- While more than another block is left, data that is asked for is sent. -/
theorem Went.flows {sc : SessionContent} {ft : JingleFT} {jibb : JingleIBB}
    {reads : List ReadResult} {blocks : List (List UInt8)}
    (went : Went env x sc ft jibb reads blocks [] s') (steady : Steady reads)
    (blocksize : jibb.blocksize = x.jibb.blocksize)
    (full : ∀ block ∈ blocks, block.length = x.jibb.blocksize) (count : blocks.length = n)
    (more : (n + 1) * x.jibb.blocksize < x.file.length)
    : Flowing env x (n + 1) s' := by
  cases went with
  | @sent ft' jibb' reads' block ah holding length same state waiting fresh later =>
      refine .mk holding waiting (later steady) (same.trans blocksize) ?_ (by simp [count])
      intro block' member
      rcases List.mem_append.mp member with old | new
      · exact full block' old
      · rw [List.mem_singleton.mp new, length, blocksize]
  | @ended last more' closed same short waiting fresh =>
      -- the last packet holds at most a block, which does not reach the end of the file
      have bytes := congrArg List.length closed.bytes
      rw [List.flatten_append, List.length_append, length_flatten_full full, count] at bytes
      have rest : last.flatten.length ≤ x.jibb.blocksize := by
        rcases short with rfl | ⟨block, _, small, rfl⟩
        · exact Nat.zero_le _
        · rw [List.flatten_singleton, ← blocksize]
          exact small
      rw [Nat.add_mul, Nat.one_mul] at more
      omega
  | failed holding same unsteady => exact absurd steady unsteady

theorem Flowing.reply (flowing : Flowing env x n s) (w : World) (message : LmMessage)
    (more : (n + 1) * x.jibb.blocksize < x.file.length)
    : ∃ s' ah, Step env s (w, .reply ah message) s' ∧ Flowing env x (n + 1) s' := by
  obtain ⟨holding, waiting, steady, blocksize, full, count⟩ := flowing
  rename_i ah
  obtain ⟨s', runs, went⟩ := holding.reply_went waiting w message
  have enabled := (waiting.known ah (List.mem_singleton.mpr rfl)).1
  exact ⟨s', ah, ⟨enabled, runs⟩, went.flows steady blocksize full count more⟩

/-- By induction on the packets: a file that is long enough sends any number of them. -/
theorem flows_on (run : Reachable env s) (flowing : Flowing env x 1 s)
    (more : (n + 1) * x.jibb.blocksize < x.file.length)
    : ∃ s', Reachable env s' ∧ Flowing env x (n + 1) s' := by
  induction n with
  | zero => exact ⟨s, run, flowing⟩
  | succ n ih =>
      have fewer : (n + 1) * x.jibb.blocksize < x.file.length :=
        Nat.lt_of_le_of_lt (Nat.mul_le_mul_right _ (Nat.le_succ _)) more
      obtain ⟨s₁, run₁, flowing₁⟩ := ih fewer
      obtain ⟨s₂, ah, step, flowing₂⟩ := flowing₁.reply plainWorld (replyOf .result) more
      exact ⟨s₂, .step run₁ trivial step, flowing₂⟩

/-- A transport that reports on its content starts the transfer. -/
theorem ReadyTransfer.initialize_flows (x : ReadyTransfer) (steady : Steady x.reads)
    (some : 1 * x.jibb.blocksize < x.file.length)
    (starting : x.state = { s with starts := s.starts ++ [x.ref] })
    (enabled : Enabled s (.transportInitialize true x.ref))
    : ∃ s', Step env s (plainWorld, .transportInitialize true x.ref) s' ∧ Flowing env x 1 s' := by
  obtain ⟨s', runs, went⟩ := x.start_went env plainWorld
  refine ⟨s', ⟨enabled, ?_⟩, went.flows steady rfl (by simp) rfl some⟩
  have conveys : Conveys s x.p x.js x.sc x.d x.t := x.conveys.congr (by rw [starting])
  change handleTransportInitialize env plainWorld true x.ref s = _
  rw [handleTransportInitialize, ReadyTransfer.ref, bind_done (conveys.find x.sc.name),
    bind_done (deref_done rfl)]
  dsimp only
  rw [bind_done (deref_done conveys.content), if_pos rfl, bind_done (deref_done conveys.appfuncs)]
  rw [starting] at runs
  exact runs

end Flow

/-- 2048 bytes, as one read gives them. -/
def pageRead : ReadResult :=
  .chunk {
    bytes := List.replicate 2048 0
    nonempty := List.cons_ne_nil _ _
    bounded := Nat.le_of_eq List.length_replicate
  }

/-- The offer of a file of 33 pages that was accepted with a block size of one byte. -/
def acceptedPages : List StepInput := [
  ({ offeringWorld [] with
      file := some {
        regular := true
        mtime := 0
        size := 67584
        opened := some (List.replicate 33 pageRead)
        encoded := true
      } },
    .jftSend (some "notes")),
  (plainWorld, .jingleIq (acceptSet "1"))
]

/-- Whether the transfer has a file of so many bytes open, and nothing was read from it. -/
def opensSized (s : State) (d : FtPtr) (size : Nat) : Bool :=
  (s.infoList.get? d).any (fun ft =>
    ft.dir == .outgoing && ft.transmit == 0
    && match ft.outfile with
      | some (.reading reads) =>
          reads.all ReadResult.isChunk
          && reads.foldr (fun read n => read.bytes.length + n) 0 == size
      | _ => false)

theorem length_fileBytes (reads : List ReadResult)
    : (fileBytes reads).length = reads.foldr (fun read n => read.bytes.length + n) 0 := by
  induction reads with
  | nil => rfl
  | cons read rest ih =>
      rw [List.foldr_cons, ← ih, fileBytes, List.flatMap_cons, List.length_append]
      rfl

theorem opensAt_of_opensSized {s : State} {d : FtPtr} {size : Nat}
    (opens : opensSized s d size = true)
    : ∃ file, opensAt s d file = true ∧ file.length = size := by
  obtain ⟨ft, found, opens⟩ := (Option.any_eq_true _ _).mp opens
  simp only [Bool.and_eq_true] at opens
  obtain ⟨direction, opens⟩ := opens
  split at opens
  · rename_i reads reading
    simp only [Bool.and_eq_true, beq_iff_eq] at opens
    refine ⟨fileBytes reads, (Option.any_eq_true _ _).mpr ⟨ft, found, ?_⟩, ?_⟩
    · simp [direction, reading, opens.1]
    · exact (length_fileBytes reads).trans opens.2
  · cases opens

/-- The packet 65536 of a stream carries 65536. -/
theorem sequence_number_does_not_wrap
    : ¬∀ (env : Env) (s : State), Reachable env s → ∀ t k iq,
        (s.packetsOn t)[k]? = some iq → iq.seq? = some (toString (k % 65536)) := by
  intro claimed
  let sc : SessionContentRef := { owner := 0, name := "file" }
  have passed : (execute fileEnv (fun _ _ => True) loaded acceptedPages).any (fun s =>
      (conveysAt s sc 1 0 && freshAt s 0 1 && (s.unanswered 0).isEmpty) && opensSized s 1 67584
      && decide (Enabled s (.transportInitialize true sc))) = true := by
    decide +kernel
  obtain ⟨s, run, both⟩ := execute_any _ (loaded_reached fileEnv _) passed
  simp only [Bool.and_eq_true, decide_eq_true_eq] at both
  obtain ⟨⟨⟨⟨conveys, fresh⟩, idle⟩, opens⟩, enabled⟩ := both
  obtain ⟨file, opens, long⟩ := opensAt_of_opensSized opens
  let s₁ : State := { s with starts := s.starts ++ [sc] }
  have ready : (conveysAt s₁ sc 1 0 && opensAt s₁ 1 file && freshAt s₁ 0 1
      && (s₁.unanswered 0).isEmpty) = true := by
    simp only [Bool.and_eq_true]
    exact ⟨⟨⟨conveys, opens⟩, fresh⟩, idle⟩
  obtain ⟨x, state, ref, _, transport, bytes, steady, size⟩ := exists_readyTransfer ready
  rw [← bytes] at long
  have starting : x.state = { s with starts := s.starts ++ [x.ref] } := by
    rw [state, ref]
  obtain ⟨s₂, step, flowing⟩ := x.initialize_flows steady (by rw [size, long]; decide) starting
    (by rw [ref]; exact enabled)
  obtain ⟨s₃, run₃, flowing₃⟩ := flows_on (.step run trivial step) flowing (n := 65536)
    (by rw [size, long]; decide)
  obtain ⟨holding, _, _, _, _, count⟩ := flowing₃
  have numbered := numbered_reached run₃
  have length := (numbered.next x.t _ holding.pumps.stream).symm.trans (holding.seq.trans count)
  have there : (s₃.packetsOn x.t)[65536]? = some (s₃.packetsOn x.t)[65536] :=
    List.getElem?_eq_getElem (by rw [length]; decide)
  have wrapped := claimed fileEnv s₃ run₃ x.t 65536 _ there
  rw [numbered.seq_eq there] at wrapped
  revert wrapped
  decide

end McabberJingle
