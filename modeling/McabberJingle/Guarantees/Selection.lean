import McabberJingle.Program.Choosing
import McabberJingle.System.Execution

/-! Which transport is chosen for an application. The choice is right as long as there is one;
with a list of forbidden transports the search ends at a NULL pointer.
-/

namespace McabberJingle

open Program Program.Prog

variable {s : State} {appxmlns : String}

-----------------------------------------------------------------------------------------
-- What should be chosen
-----------------------------------------------------------------------------------------

/-- The registered transports of the application's type that are not forbidden. -/
def suitableTransports (s : State) (appxmlns : String) (forbid : List String)
    : List TransportHandlerEntry :=
  match jingleFindApp s (some appxmlns) with
  | none => []
  | some app =>
      Choosing.allowed TransportHandlerEntry.xmlns
        (s.transportHandlers.filter (fun entry => decide (entry.transtype = app.transtype))) forbid

/-- The namespace of the first of those with the highest priority. -/
def chosenTransport (s : State) (appxmlns : String) (forbid : List String) : Option String :=
  ((suitableTransports s appxmlns forbid).argmax TransportHandlerEntry.priority).map
    TransportHandlerEntry.xmlns

/-- The call returns that namespace and forbids it. -/
def ChoosesRightly (s : State) (appxmlns : String) (forbid : Option (List String)) : Prop :=
  jingleTransportForApp appxmlns forbid s
    = .done (chosenTransport s appxmlns (forbid.getD []),
        forbid.map (· ++ (chosenTransport s appxmlns (forbid.getD [])).toList)) s

/-- Calls with one list, and what they return. -/
def callsInTurn (appxmlns : String)
    : Nat → List String → Run (List (Option String) × List String)
  | 0, forbid => pure ([], forbid)
  | calls + 1, forbid => do
      let (xmlns, forbid) ← jingleTransportForApp appxmlns (some forbid)
      let (later, forbid) ← callsInTurn appxmlns calls (forbid.getD [])
      pure (xmlns :: later, forbid)

/-- Every namespace of a suitable transport once, by falling priority. -/
structure ListsTransports (s : State) (appxmlns : String) (forbid : List String)
    (listing : List TransportHandlerEntry)
    : Prop where
  suitable : ∀ entry ∈ listing, entry ∈ suitableTransports s appxmlns forbid
  once : (listing.map TransportHandlerEntry.xmlns).Nodup
  complete : ∀ entry ∈ suitableTransports s appxmlns forbid,
    entry.xmlns ∈ listing.map TransportHandlerEntry.xmlns
  ordered : listing.Pairwise (fun first later => later.priority ≤ first.priority)

/-- That many calls return the namespaces of the listing, then NULL. -/
def ReturnsInTurn (s : State) (appxmlns : String) (forbid : List String)
    (listing : List TransportHandlerEntry) (calls : Nat)
    : Prop :=
  callsInTurn appxmlns calls forbid s
    = .done
        ((listing.take calls).map (fun entry => some entry.xmlns)
            ++ List.replicate (calls - listing.length) none,
          forbid ++ (listing.take calls).map TransportHandlerEntry.xmlns) s

-----------------------------------------------------------------------------------------
-- What the loop chooses
-----------------------------------------------------------------------------------------

/-- The transports that the loop can choose: 0 is no priority. -/
def eligibleTransports (s : State) (requested : JingleTransportType)
    : List TransportHandlerEntry :=
  s.transportHandlers.filter (fun entry =>
    decide (entry.transtype = requested ∧ 0 < entry.priority))

/-- By induction on the entries: the best so far has the best priority so far. -/
theorem bestTransport_foldl (requested : JingleTransportType) (forbid : List String)
    (entries : List TransportHandlerEntry) (best : Option TransportHandlerEntry)
    : bestTransport requested forbid entries
        ((best.map TransportHandlerEntry.priority).getD 0) best
      = (entries.filter (fun entry => decide (entry.xmlns ∉ forbid
          ∧ entry.transtype = requested ∧ 0 < entry.priority))).foldl
          (List.argAux (fun later first => first.priority < later.priority)) best := by
  induction entries generalizing best with
  | nil => rfl
  | cons entry rest ih =>
      rw [bestTransport]
      by_cases forbidden : entry.xmlns ∈ forbid
      · rw [if_pos (by simpa using forbidden), List.filter_cons_of_neg (by simp [forbidden])]
        exact ih best
      rw [if_neg (by simpa using forbidden)]
      by_cases fits : entry.transtype = requested ∧ 0 < entry.priority
      · rw [List.filter_cons_of_pos (by simp [forbidden, fits]), List.foldl_cons]
        cases best with
        | none =>
            rw [if_pos ⟨fits.1, fits.2⟩]
            exact ih (some entry)
        | some first =>
            by_cases better : first.priority < entry.priority
            · have taken : List.argAux (fun later first : TransportHandlerEntry =>
                  first.priority < later.priority) (some first) entry = some entry := if_pos better
              rw [if_pos ⟨fits.1, better⟩, taken]
              exact ih (some entry)
            · have kept : List.argAux (fun later first : TransportHandlerEntry =>
                  first.priority < later.priority) (some first) entry = some first := if_neg better
              rw [if_neg (fun both => better both.2), kept]
              exact ih (some first)
      · rw [List.filter_cons_of_neg (by simp [fits]), if_neg]
        · exact ih best
        · exact fun both => fits ⟨both.1, Nat.zero_lt_of_lt both.2⟩

theorem bestTransport_eq (s : State) (requested : JingleTransportType) (forbid : List String)
    : bestTransport requested forbid s.transportHandlers 0 none
      = Choosing.best TransportHandlerEntry.xmlns TransportHandlerEntry.priority
          (eligibleTransports s requested) forbid := by
  refine (bestTransport_foldl requested forbid s.transportHandlers none).trans ?_
  rw [Choosing.best, Choosing.allowed, eligibleTransports, List.filter_filter, List.argmax]
  simp only [Bool.decide_and]

/-- For an application that is not registered nothing is suitable. -/
theorem suitableTransports_unknown (unknown : jingleFindApp s (some appxmlns) = none)
    (forbid : List String)
    : suitableTransports s appxmlns forbid = [] := by
  rw [suitableTransports, unknown]

section Known

variable {app : AppHandlerEntry} {forbid : List String}

theorem mem_suitableTransports (known : jingleFindApp s (some appxmlns) = some app)
    {entry : TransportHandlerEntry}
    : entry ∈ suitableTransports s appxmlns forbid
      ↔ (entry ∈ s.transportHandlers ∧ entry.transtype = app.transtype)
        ∧ entry.xmlns ∉ forbid := by
  rw [suitableTransports, known]
  simp [Choosing.mem_allowed]

/-- The loop chooses rightly among transports with a priority. -/
theorem best_eligible (known : jingleFindApp s (some appxmlns) = some app)
    (forbid : List String)
    : Choosing.best TransportHandlerEntry.xmlns TransportHandlerEntry.priority
        (eligibleTransports s app.transtype) forbid
      = ((suitableTransports s appxmlns forbid).argmax TransportHandlerEntry.priority).filter
          (fun entry => decide (0 < entry.priority)) := by
  rw [← Choosing.argmax_filter_lt, Choosing.best, suitableTransports, known]
  refine congrArg (List.argmax TransportHandlerEntry.priority) ?_
  simp only [Choosing.allowed, eligibleTransports, List.filter_filter]
  refine List.filter_congr (fun entry _ => ?_)
  simp only [Bool.decide_and]
  ac_rfl

theorem jingleTransportForApp_free (known : jingleFindApp s (some appxmlns) = some app)
    : jingleTransportForApp appxmlns none s
      = .done ((Choosing.best TransportHandlerEntry.xmlns TransportHandlerEntry.priority
          (eligibleTransports s app.transtype) []).map TransportHandlerEntry.xmlns, none) s := by
  rw [jingleTransportForApp, bind_get, known, ← bestTransport_eq]
  rfl

theorem jingleTransportForApp_found (known : jingleFindApp s (some appxmlns) = some app)
    {entry : TransportHandlerEntry}
    (chosen : Choosing.best TransportHandlerEntry.xmlns TransportHandlerEntry.priority
      (eligibleTransports s app.transtype) forbid = some entry)
    : jingleTransportForApp appxmlns (some forbid) s
      = .done (some entry.xmlns, some (forbid ++ [entry.xmlns])) s := by
  rw [← bestTransport_eq] at chosen
  rw [jingleTransportForApp, bind_get, known]
  exact bind_done (deref_done chosen)

/-- With nothing left to choose the list is extended through NULL. -/
theorem jingleTransportForApp_exhausted (known : jingleFindApp s (some appxmlns) = some app)
    (nothing : Choosing.best TransportHandlerEntry.xmlns TransportHandlerEntry.priority
      (eligibleTransports s app.transtype) forbid = none)
    : jingleTransportForApp appxmlns (some forbid) s = .fault (.nullDeref .transfuncs) s := by
  rw [← bestTransport_eq] at nothing
  rw [jingleTransportForApp, bind_get, known]
  refine bind_fault ?_
  rw [Option.getD_some, nothing]
  rfl

end Known

theorem jingleTransportForApp_unknown (unknown : jingleFindApp s (some appxmlns) = none)
    (forbid : Option (List String))
    : jingleTransportForApp appxmlns forbid s = .done (none, forbid) s := by
  rw [jingleTransportForApp, bind_get, unknown]
  rfl

-----------------------------------------------------------------------------------------
-- One call
-----------------------------------------------------------------------------------------

/-- A call chooses rightly exactly when a transport with a priority is left, or nothing is and
no list is extended.
-/
theorem choosesRightly_iff (s : State) (appxmlns : String) (forbid : Option (List String))
    : ChoosesRightly s appxmlns forbid
      ↔ (∃ entry ∈ suitableTransports s appxmlns (forbid.getD []), 0 < entry.priority)
        ∨ suitableTransports s appxmlns (forbid.getD []) = []
          ∧ (forbid = none ∨ jingleFindApp s (some appxmlns) = none) := by
  unfold ChoosesRightly chosenTransport
  cases known : jingleFindApp s (some appxmlns) with
  | none =>
      rw [suitableTransports_unknown known, jingleTransportForApp_unknown known]
      cases forbid <;> simp
  | some app =>
      have loop := best_eligible known
      have exhausted (list : List String)
          (best : ((suitableTransports s appxmlns list).argmax
            TransportHandlerEntry.priority).filter (fun entry => decide (0 < entry.priority))
              = none)
          : jingleTransportForApp appxmlns (some list) s = .fault (.nullDeref .transfuncs) s :=
        jingleTransportForApp_exhausted known ((loop list).trans best)
      cases best : (suitableTransports s appxmlns (forbid.getD [])).argmax
          TransportHandlerEntry.priority with
      | none =>
          have nothing := List.argmax_eq_none.mp best
          rw [nothing]
          cases forbid with
          | none =>
              rw [Option.getD_none] at best
              rw [jingleTransportForApp_free known, loop, best]
              simp
          | some list =>
              rw [Option.getD_some] at best
              rw [exhausted list (by rw [best]; rfl)]
              simp
      | some entry =>
          have member := List.argmax_mem best
          by_cases positive : 0 < entry.priority
          · refine iff_of_true ?_ (.inl ⟨entry, member, positive⟩)
            have kept : (some entry).filter (fun entry : TransportHandlerEntry =>
                decide (0 < entry.priority)) = some entry := by simp [Option.filter_some, positive]
            cases forbid with
            | none =>
                rw [Option.getD_none] at best
                rw [jingleTransportForApp_free known, loop, best, kept]
                rfl
            | some list =>
                rw [Option.getD_some] at best
                rw [jingleTransportForApp_found known (by rw [loop, best, kept])]
                rfl
          · have dropped : (some entry).filter (fun entry : TransportHandlerEntry =>
                decide (0 < entry.priority)) = none := by simp [Option.filter_some, positive]
            refine iff_of_false ?_ ?_
            · cases forbid with
              | none =>
                  rw [Option.getD_none] at best
                  rw [jingleTransportForApp_free known, loop, best, dropped]
                  simp
              | some list =>
                  rw [Option.getD_some] at best
                  rw [exhausted list (by rw [best, dropped])]
                  simp
            · rintro (⟨other, there, above⟩ | ⟨nothing, _⟩)
              · exact positive (Nat.lt_of_lt_of_le above (List.le_of_mem_argmax there best))
              · rw [nothing] at member
                cases member

-----------------------------------------------------------------------------------------
-- Calls with one list
-----------------------------------------------------------------------------------------

/-- By induction on the calls: they drain the eligible transports, and then stop at NULL. -/
theorem callsInTurn_drain {app : AppHandlerEntry}
    (known : jingleFindApp s (some appxmlns) = some app) (calls : Nat) (forbid : List String)
    : callsInTurn appxmlns calls forbid s
      = let drained := Choosing.drain TransportHandlerEntry.xmlns TransportHandlerEntry.priority
          (eligibleTransports s app.transtype) calls forbid
        if drained.length = calls then
          .done (drained.map (fun entry => some entry.xmlns),
            forbid ++ drained.map TransportHandlerEntry.xmlns) s
        else
          .fault (.nullDeref .transfuncs) s := by
  induction calls generalizing forbid with
  | zero => simp [callsInTurn, Choosing.drain]; rfl
  | succ calls ih =>
      rw [callsInTurn, Choosing.drain]
      cases best : Choosing.best TransportHandlerEntry.xmlns TransportHandlerEntry.priority
          (eligibleTransports s app.transtype) forbid with
      | none => exact bind_fault (jingleTransportForApp_exhausted known best)
      | some entry =>
          rw [bind_done (jingleTransportForApp_found known best)]
          dsimp only [Option.getD_some]
          have later := ih (forbid ++ [entry.xmlns])
          dsimp only at later
          split at later
          · rename_i enough
            rw [bind_done later, if_pos (by rw [List.length_cons, enough])]
            simp only [List.map_cons, List.append_assoc, List.singleton_append]
            rfl
          · rename_i tooFew
            rw [bind_fault later, if_neg (by simpa using tooFew)]

/-- Once the application is not known, every call returns NULL. -/
theorem callsInTurn_unknown (unknown : jingleFindApp s (some appxmlns) = none) (calls : Nat)
    (forbid : List String)
    : callsInTurn appxmlns calls forbid s = .done (List.replicate calls none, forbid) s := by
  induction calls with
  | zero => rfl
  | succ calls ih =>
      rw [callsInTurn, bind_done (jingleTransportForApp_unknown unknown (some forbid))]
      dsimp only [Option.getD_some]
      rw [bind_done ih]
      rfl

/-- Without a registered application nothing is listed. -/
theorem lists_nothing (unknown : jingleFindApp s (some appxmlns) = none) (forbid : List String)
    : ListsTransports s appxmlns forbid []
      ∧ ∀ calls, ReturnsInTurn s appxmlns forbid [] calls := by
  refine ⟨⟨by simp, List.nodup_nil, ?_, List.Pairwise.nil⟩, fun calls => ?_⟩
  · rw [suitableTransports_unknown unknown]
    simp
  · rw [ReturnsInTurn, callsInTurn_unknown unknown]
    simp

/-- The calls list the transports exactly when every suitable namespace has one with a
priority.
-/
theorem listsUntilExhausted_iff (s : State) (appxmlns : String) (forbid : List String)
    : (∃ listing, ListsTransports s appxmlns forbid listing
        ∧ ∀ calls ≤ listing.length, ReturnsInTurn s appxmlns forbid listing calls)
      ↔ ∀ entry ∈ suitableTransports s appxmlns forbid,
          ∃ other ∈ suitableTransports s appxmlns forbid,
            other.xmlns = entry.xmlns ∧ 0 < other.priority := by
  cases known : jingleFindApp s (some appxmlns) with
  | none =>
      refine iff_of_true ?_ ?_
      · obtain ⟨lists, returns⟩ := lists_nothing known forbid
        exact ⟨[], lists, fun calls _ => returns calls⟩
      · rw [suitableTransports_unknown known]
        simp
  | some app =>
      let eligible := eligibleTransports s app.transtype
      have drainedSuits {turns : Nat} {entry : TransportHandlerEntry}
          (drained : entry ∈ Choosing.drain TransportHandlerEntry.xmlns
            TransportHandlerEntry.priority eligible turns forbid)
          : entry ∈ suitableTransports s appxmlns forbid ∧ 0 < entry.priority := by
        obtain ⟨member, free⟩ := Choosing.drain_mem drained
        obtain ⟨there, fits⟩ := List.mem_filter.mp member
        obtain ⟨type, positive⟩ := of_decide_eq_true fits
        exact ⟨(mem_suitableTransports known).mpr ⟨⟨there, type⟩, free⟩, positive⟩
      constructor
      · rintro ⟨listing, lists, returns⟩ entry member
        have all := returns listing.length (Nat.le_refl _)
        rw [ReturnsInTurn, callsInTurn_drain known] at all
        dsimp only at all
        split at all
        · injection all with values
          simp only [List.take_length, Prod.mk.injEq, List.append_cancel_left_eq] at values
          have listed := lists.complete entry member
          rw [← values.2] at listed
          obtain ⟨other, drained, same⟩ := List.mem_map.mp listed
          obtain ⟨suits, positive⟩ := drainedSuits drained
          exact ⟨other, suits, same, positive⟩
        · cases all
      · intro valid
        let turns := (Choosing.allowed TransportHandlerEntry.xmlns eligible forbid).length
        refine ⟨Choosing.drain TransportHandlerEntry.xmlns TransportHandlerEntry.priority eligible
          turns forbid, ⟨fun entry drained => (drainedSuits drained).1, Choosing.drain_nodup turns,
            fun entry member => ?_, Choosing.drain_ordered turns⟩, fun calls few => ?_⟩
        · obtain ⟨other, suits, same, positive⟩ := valid entry member
          obtain ⟨⟨there, type⟩, free⟩ := (mem_suitableTransports known).mp suits
          rw [← same]
          refine Choosing.drain_complete (Nat.le_refl _) ?_ free
          exact List.mem_filter.mpr ⟨there, decide_eq_true ⟨type, positive⟩⟩
        · have within := Nat.le_trans few (Choosing.length_drain_le turns)
          have front : (Choosing.drain TransportHandlerEntry.xmlns TransportHandlerEntry.priority
              eligible turns forbid).take calls
              = Choosing.drain TransportHandlerEntry.xmlns TransportHandlerEntry.priority eligible
                calls forbid := Choosing.drain_take within
          rw [ReturnsInTurn, front, callsInTurn_drain known]
          dsimp only
          rw [if_pos (by rw [← front, List.length_take, Nat.min_eq_left few]),
            Nat.sub_eq_zero_of_le few, List.replicate_zero, List.append_nil]

/-- After the last transport the calls return NULL only if nothing was ever suitable because the
application is not registered.
-/
theorem listsAll_iff (s : State) (appxmlns : String) (forbid : List String)
    : (∃ listing, ListsTransports s appxmlns forbid listing
        ∧ ∀ calls, ReturnsInTurn s appxmlns forbid listing calls)
      ↔ jingleFindApp s (some appxmlns) = none := by
  constructor
  · rintro ⟨listing, lists, returns⟩
    cases known : jingleFindApp s (some appxmlns) with
    | none => rfl
    | some app =>
        have beyond := returns (listing.length + 1)
        rw [ReturnsInTurn, callsInTurn_drain known] at beyond
        dsimp only at beyond
        split at beyond
        · injection beyond with values
          obtain ⟨returned, _⟩ := Prod.mk.inj values
          have last : (none : Option String) ∈ (listing.take (listing.length + 1)).map
              (fun entry => some entry.xmlns)
                ++ List.replicate (listing.length + 1 - listing.length) none := by simp
          rw [← returned] at last
          obtain ⟨entry, _, same⟩ := List.mem_map.mp last
          cases same
        · cases beyond
  · intro unknown
    exact ⟨[], lists_nothing unknown forbid⟩

-----------------------------------------------------------------------------------------
-- The choice of a transport
-----------------------------------------------------------------------------------------

/-- One call chooses rightly as long as a transport with a priority is left, calls with one list
list the transports as long as every namespace has one with a priority, and the list ends with NULL
only for an application that is not registered.
-/
theorem transport_selected (s : State) (appxmlns : String)
    : (∀ forbid, ChoosesRightly s appxmlns forbid
        ↔ (∃ entry ∈ suitableTransports s appxmlns (forbid.getD []), 0 < entry.priority)
          ∨ suitableTransports s appxmlns (forbid.getD []) = []
            ∧ (forbid = none ∨ jingleFindApp s (some appxmlns) = none))
      ∧ (∀ forbid,
          (∃ listing, ListsTransports s appxmlns forbid listing
            ∧ ∀ calls ≤ listing.length, ReturnsInTurn s appxmlns forbid listing calls)
          ↔ ∀ entry ∈ suitableTransports s appxmlns forbid,
              ∃ other ∈ suitableTransports s appxmlns forbid,
                other.xmlns = entry.xmlns ∧ 0 < other.priority)
      ∧ ∀ forbid,
          (∃ listing, ListsTransports s appxmlns forbid listing
            ∧ ∀ calls, ReturnsInTurn s appxmlns forbid listing calls)
          ↔ jingleFindApp s (some appxmlns) = none :=
  ⟨choosesRightly_iff s appxmlns, listsUntilExhausted_iff s appxmlns,
    listsAll_iff s appxmlns⟩

/-- With the only transport forbidden, the call goes through a NULL pointer. -/
theorem exhausted_list_dereferences_null
    : jingleTransportForApp NS_JINGLE_APP_FT (some [NS_JINGLE_TRANSPORT_IBB]) loaded
        = .fault (.nullDeref .transfuncs) loaded
      ∧ ¬ChoosesRightly loaded NS_JINGLE_APP_FT (some [NS_JINGLE_TRANSPORT_IBB]) := by
  have stops : jingleTransportForApp NS_JINGLE_APP_FT (some [NS_JINGLE_TRANSPORT_IBB]) loaded
      = .fault (.nullDeref .transfuncs) loaded := rfl
  refine ⟨stops, fun right => ?_⟩
  rw [ChoosesRightly, stops] at right
  cases right

end McabberJingle
