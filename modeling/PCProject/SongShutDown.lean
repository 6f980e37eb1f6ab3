import PCProject.SongPaths

namespace PCProject
variable {maxConcurrentClients : Int} {songPaths : List String} {s s' : SongServerState} {action : SongAction} {j : Nat}
  {c c' : SongConnection}

/-- Main has not come to its loop. -/
def AcceptPc.startsUp : AcceptPc → Bool
  | .settingUp _ | .clearingStop => true
  | _ => false

/-- Main has freed the paths. -/
def AcceptPc.ends : AcceptPc → Bool
  | .returning | .exited => true
  | _ => false

/-- A handler closes its socket at its end, and it has received when it reads the paths. -/
structure SongConnection.Ordered (c : SongConnection) : Prop where
  closing : ∀ h, c.handler = some h → c.closed = true → h.pc = .closing ∨ h.pc = .returned
  late : ∀ h, c.handler = some h → c.late = true → h.pc ≠ .receiving

/-- The end of the server: as long as there are connections, `server_socket` is only closed behind a stop request, and
the paths are freed after that. -/
structure ShutDownInv (s : SongServerState) : Prop where
  ordered : ∀ c ∈ s.connections, c.Ordered
  late : ∀ c ∈ s.connections, c.late = true → s.stop = true
  early : s.main.startsUp = true → s.connections = []
  served : s.connections ≠ [] → s.socket = .opened ∨ s.stop = true
  stopping : s.main = .stopping → s.stop = true
  freeing : s.main = .freeing → s.socket ≠ .opened
  freed : s.pathsFreed = true → s.socket ≠ .opened ∧ s.main.ends = true

/-- The first call of a handler is its only `recv`. -/
theorem songStep_leaves {h h' : SongHandler} {call : SongCall} (step : songStep songPaths h call = some h') :
    h'.pc ≠ .receiving := by
  cases songStep_move step with
  | fails _ _ _ next | opens _ _ next | reads _ _ next | sends _ _ next | sent _ _ next | closes _ _ next =>
    rw [next]
    simp

theorem ShutDownInv.setConnection (inv : ShutDownInv s) (found : s.connections[j]? = some c) (ordered : c'.Ordered)
    (late : c'.late = true → s.stop = true) : ShutDownInv (s.setConnection j c') where
  ordered d member := (List.mem_or_eq_of_mem_set member).elim (inv.ordered d) fun same => same ▸ ordered
  late d member := (List.mem_or_eq_of_mem_set member).elim (inv.late d) fun same => same ▸ late
  early startsUp := by
    rw [inv.early startsUp] at found
    cases found
  served _ := inv.served (List.ne_nil_of_mem (List.mem_of_getElem? found))
  stopping := inv.stopping
  freeing := inv.freeing
  freed := inv.freed

/-- A step that only moves main. -/
theorem ShutDownInv.moveMain {pc : AcceptPc} {live : Int} (inv : ShutDownInv s) (started : pc.startsUp = false)
    (stopping : pc = .stopping → s.stop = true) (freeing : pc ≠ .freeing)
    (freed : s.pathsFreed = true → pc.ends = true) :
    ShutDownInv { s with liveHandlersCount := live, main := pc } where
  ordered := inv.ordered
  late := inv.late
  early startsUp := by cases started.symm.trans startsUp
  served := inv.served
  stopping := stopping
  freeing here := absurd here freeing
  freed free := ⟨(inv.freed free).1, freed free⟩

theorem ShutDownInv.handler (inv : ShutDownInv s) (found : s.connections[j]? = some c)
    (move : SongHandlerMove songPaths s j c s') : ShutDownInv s' := by
  have member := List.mem_of_getElem? found
  have ordered := inv.ordered c member
  cases move with
  | @call h h' call thread before after step =>
    refine inv.setConnection found ⟨fun _ same closed => ?_, fun _ same _ => ?_⟩ fun late => ?_
    · cases same
      rcases songStep_places step with ⟨-, -, returned⟩ | ⟨-, running, -, -⟩
      · exact Or.inr returned
      · exact ((ordered.closing h thread closed).elim running before).elim
    · cases same
      exact songStep_leaves step
    · simp only [Bool.or_eq_true, Bool.and_eq_true, decide_eq_true_eq] at late
      rcases late with earlier | closed
      · exact inv.late c member earlier
      · exact (inv.served (List.ne_nil_of_mem member)).resolve_left closed.1
  | closeSocket thread closing =>
    refine inv.setConnection found ⟨fun h same _ => ?_, ordered.late⟩ (inv.late c member)
    cases thread.symm.trans same
    exact Or.inl closing
  | @closeClient h h' thread closing returned =>
    have ended : { c with handler := some h', decrements := c.decrements + 1 }.Ordered := by
      constructor <;> (intro h same _; cases same)
      · exact Or.inr returned
      · rw [returned]
        simp
    have set := inv.setConnection found ended (inv.late c member)
    by_cases asleep : s.main = .asleep
    · rw [AcceptPc.signal, if_pos asleep]
      refine set.moveMain rfl (by simp) (by simp) fun free => ?_
      have ends := (inv.freed free).2
      rw [asleep] at ends
      cases ends
    · rw [AcceptPc.signal, if_neg asleep]
      exact ⟨set.ordered, set.late, set.early, set.served, set.stopping, set.freeing, set.freed⟩

/-- Before it has connections the server has nothing to keep. -/
theorem ShutDownInv.of_empty (none : s.connections = []) (unfreed : s.pathsFreed = false)
    (early : s.main ≠ .stopping ∧ s.main ≠ .freeing) : ShutDownInv s where
  ordered c member := by
    rw [none] at member
    cases member
  late c member := by
    rw [none] at member
    cases member
  early _ := none
  served some_ := absurd none some_
  stopping here := absurd here early.1
  freeing here := absurd here early.2
  freed free := by cases unfreed.symm.trans free

/-- The paths are freed in front of the last step of main only. -/
theorem ShutDownInv.unfreed {pc : AcceptPc} (inv : ShutDownInv s) (here : s.main = pc) (before : pc.ends = false) :
    s.pathsFreed = false := by
  by_contra freed
  have ends := (inv.freed (Bool.eq_true_of_not_eq_false freed)).2
  rw [here, before] at ends
  cases ends

/-- A connection without a handler. -/
theorem SongConnection.ordered_of_none (free : c.handler = none) : c.Ordered := by
  constructor <;> (intro h thread; cases free.symm.trans thread)

theorem ShutDownInv.mainMove {success : Bool} {stack : Bytes} (inv : ShutDownInv s)
    (slots : SlotInv maxConcurrentClients s) (move : SongMainMove maxConcurrentClients s success stack s') :
    ShutDownInv s' := by
  have holds := slots.main
  unfold SongServerState.MainHolds at holds
  -- a step in front of the end, where the paths are not freed
  have moves {pc pc' : AcceptPc} {live : Int} (here : s.main = pc) (before : pc.ends = false)
      (started : pc'.startsUp = false) (stopping : pc' = .stopping → s.stop = true) (freeing : pc' ≠ .freeing) :
      ShutDownInv { s with liveHandlersCount := live, main := pc' } :=
    inv.moveMain started stopping freeing fun free => by cases (inv.unfreed here before).symm.trans free
  -- the same with a change of the connection that main holds
  have changes {i : Nat} {c c' : SongConnection} {pc pc' : AcceptPc} {live : Int} (found : s.connections[i]? = some c)
      (ordered : c'.Ordered) (early : c'.late = false) (here : s.main = pc) (before : pc.ends = false)
      (started : pc'.startsUp = false) (stopping : pc' = .stopping → s.stop = true) (freeing : pc' ≠ .freeing) :
      ShutDownInv { s.setConnection i c' with liveHandlersCount := live, main := pc' } :=
    (inv.setConnection found ordered fun late => by cases early.symm.trans late).moveMain started stopping freeing
      fun free => by cases (inv.unfreed here before).symm.trans free
  cases move with
  | @setUp call _ here =>
    refine ShutDownInv.of_empty (inv.early (by rw [here]; rfl)) (inv.unfreed here rfl) ?_
    cases call <;> simp [SetUpCall.next]
  | clearStop here =>
    exact ShutDownInv.of_empty (inv.early (by rw [here]; rfl)) (inv.unfreed here rfl) ⟨by simp, by simp⟩
  | setUpFails here | allocates here | allocateFails here | acceptFails here =>
    exact moves here rfl rfl (by simp) (by simp)
  | enterLoop here | retries here | takesOn here | createFails here =>
    exact moves here rfl rfl (by simp) (by simp)
  | leaveLoop here stop | stopsUnaccepted here stop =>
    exact moves here rfl rfl (fun _ => stop) (by simp)
  | waits here | proceeds here => rcases here with here | here <;> exact moves here rfl rfl (by simp) (by simp)
  | accepts here possible =>
    have unfreed := inv.unfreed here rfl
    refine ⟨fun d member => ?_, fun d member => ?_, by simp [AcceptPc.startsUp], fun _ => ?_, by simp, by simp,
      fun free => ?_⟩
    · rcases List.mem_append.mp member with old | new
      · exact inv.ordered d old
      · exact SongConnection.ordered_of_none (by rw [List.mem_singleton.mp new])
    · rcases List.mem_append.mp member with old | new
      · exact inv.late d old
      · rw [List.mem_singleton.mp new]
        simp
    · simpa [SongServerState.canAccept] using possible
    · cases unfreed.symm.trans free
  | refuses here stop found =>
    simp only [here] at holds
    cases found.symm.trans holds.2
    exact changes found (SongConnection.ordered_of_none rfl) rfl here rfl rfl (fun _ => stop) (by simp)
  | counts here found =>
    simp only [here] at holds
    cases found.symm.trans holds.2
    exact changes found (SongConnection.ordered_of_none rfl) rfl here rfl rfl (by simp) (by simp)
  | creates here found =>
    simp only [here] at holds
    cases found.symm.trans holds
    have fresh : SongConnection.Ordered { handler := some (.start stack), counted := true } := ⟨by simp, by simp⟩
    exact changes found fresh rfl here rfl rfl (by simp) (by simp)
  | closesServer here =>
    exact { inv with
      early := by simp [AcceptPc.startsUp]
      served := fun _ => Or.inr (inv.stopping here)
      stopping := by simp
      freeing := fun _ => s.socket.close_ne_opened
      freed := fun free => by cases (inv.unfreed here rfl).symm.trans free }
  | freesPaths here =>
    exact { inv with
      early := by simp [AcceptPc.startsUp]
      stopping := by simp
      freeing := by simp
      freed := fun _ => ⟨inv.freeing here, rfl⟩ }
  | returns => exact inv.moveMain rfl (by simp) (by simp) fun _ => rfl

theorem ShutDownInv.move (inv : ShutDownInv s) (slots : SlotInv maxConcurrentClients s)
    (move : SongServerMove maxConcurrentClients songPaths s action s') : ShutDownInv s' := by
  cases move with
  | main move => exact inv.mainMove slots move
  | wakeup asleep =>
    refine inv.moveMain rfl (by simp) (by simp) fun free => ?_
    cases (inv.unfreed asleep rfl).symm.trans free
  | handler found move | closeSocket found move => exact inv.handler found move
  | interrupt =>
    exact { inv with
      late := fun _ _ _ => rfl
      served := fun _ => Or.inr rfl
      stopping := fun _ => rfl
      freeing := fun _ => s.socket.close_ne_opened
      freed := fun free => ⟨s.socket.close_ne_opened, (inv.freed free).2⟩ }
  | @reuse i c h file found thread late =>
    have member := List.mem_of_getElem? found
    have ordered := inv.ordered c member
    refine inv.setConnection found ⟨fun _ same closed => ?_, fun _ same _ => ?_⟩ (inv.late c member)
    · cases same
      exact ordered.closing h thread closed
    · cases same
      exact ordered.late h thread late

theorem song_shutDown (some_ : 1 ≤ maxConcurrentClients)
    (reach : (songServerSystem maxConcurrentClients songPaths).Reach s) : ShutDownInv s := by
  refine reach.invariant (fun s initial => ?_) fun s action t before inv step =>
    inv.move (song_slots some_ before) (songServerStep_move step)
  cases initial
  exact ShutDownInv.of_empty rfl rfl ⟨by simp [SongServerState.start], by simp [SongServerState.start]⟩

end PCProject
