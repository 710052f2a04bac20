import ProjectPl.AcceptCore
import ProjectPl.ObjectPools

/-!
Where the `Connector` objects are. Whatever the system answers, every object in use has exactly
one place: an accept that is out or posted, a connection, or among the ones that were left behind
and never come back. Each accept of the back-log that is answered is replaced; one that fails, or
for which there is no socket, is missing from then on.
-/

namespace ProjectPl

namespace Network

variable {Pointer : Type}

def places (network : Network Pointer) : List Pointer :=
  network.accepting ++ network.posted ++ network.connected ++ network.dropped ++ network.forgotten

def backlog (network : Network Pointer) : Nat :=
  network.accepting.length + network.posted.length + network.dropped.length

structure Held (heap : Heap Pointer) (network : Network Pointer) : Prop where
  whole : network.connectorMgr.Whole heap
  placed : network.places.Perm network.connectorMgr.usedList

/-- Between two places: the object is in use, and the call that took it has not placed it yet. -/
structure Handling (heap : Heap Pointer) (network : Network Pointer) (obj : Pointer) : Prop where
  whole : network.connectorMgr.Whole heap
  placed : (obj :: network.places).Perm network.connectorMgr.usedList

theorem start_held (heap : Heap Pointer) : Held heap (start heap) := by
  refine ⟨ObjectPoolMgrBase.new_whole heap 10, ?_⟩
  rw [start, ObjectPoolMgrBase.new, ObjectPoolMgrBase.allocate_eq]
  exact List.Perm.nil

/-! Taking an object. -/

section Take

variable {heap : Heap Pointer} {network : Network Pointer}

theorem Held.take (held : Held heap network)
    (fits : ObjectPoolMgrBase.Fits network.connectorMgr .getFreeObject) :
    Handling heap { network with connectorMgr := (network.connectorMgr.getFreeObject heap).1 }
        (network.connectorMgr.getFreeObject heap).2 ∧
      (network.connectorMgr.getFreeObject heap).2 ≠ heap.null := by
  refine ⟨⟨ObjectPoolMgrBase.getFreeObject_whole held.whole fits, ?_⟩,
    (ObjectPoolMgrBase.getFreeObject_unused held.whole fits).1⟩
  obtain ⟨filled, rest, -, used, -, next⟩ :=
    ObjectPoolMgrBase.getFreeObject_spec held.whole fits
  rw [next, used]
  exact (held.placed.cons _).trans (List.perm_append_singleton _ _).symm

end Take

section Steps

variable [DecidableEq Pointer] {heap : Heap Pointer} {network : Network Pointer} {obj : Pointer}

theorem Held.dequeue_accepting (held : Held heap network) (out : obj ∈ network.accepting) :
    Handling heap { network with accepting := network.accepting.erase obj } obj := by
  refine ⟨held.whole, List.Perm.trans ?_ held.placed⟩
  have cut := List.perm_cons_erase out
  simp only [places, List.append_assoc, ← List.cons_append]
  exact cut.symm.append_right _

theorem Held.dequeue_posted (held : Held heap network) (out : obj ∈ network.posted) :
    Handling heap { network with posted := network.posted.erase obj } obj := by
  refine ⟨held.whole, List.Perm.trans ?_ held.placed⟩
  have cut := List.perm_cons_erase out
  simp only [places, List.append_assoc]
  refine List.perm_middle.symm.trans (List.Perm.append_left _ ?_)
  rw [← List.cons_append]
  exact cut.symm.append_right _

theorem Held.dequeue_connected (held : Held heap network) (out : obj ∈ network.connected) :
    Handling heap { network with connected := network.connected.erase obj } obj := by
  refine ⟨held.whole, List.Perm.trans ?_ held.placed⟩
  have cut := List.perm_cons_erase out
  simp only [places, List.append_assoc]
  refine List.perm_middle.symm.trans (List.Perm.append_left _ ?_)
  refine List.perm_middle.symm.trans (List.Perm.append_left _ ?_)
  rw [← List.cons_append]
  exact cut.symm.append_right _

/-! Placing it. -/

theorem Handling.setFreeObject (handling : Handling heap network obj) :
    Held heap (network.setFreeObject obj) := by
  refine ⟨ObjectPoolMgrBase.setFreeObject_whole handling.whole obj, ?_⟩
  have inUse : obj ∈ network.connectorMgr.usedList :=
    handling.placed.subset List.mem_cons_self
  have distinct := (List.nodup_append'.mp (ObjectPoolMgrBase.nodup_lists handling.whole)).2.1
  have erased : network.connectorMgr.usedList.filter (· ≠ obj) =
      network.connectorMgr.usedList.erase obj := by
    rw [distinct.erase_eq_filter]
    exact List.filter_congr fun other _ => by simp [bne, BEq.beq]
  simp only [Network.setFreeObject, ObjectPoolMgrBase.setFreeObject, if_pos inUse]
  rw [erased]
  exact (List.cons_perm_iff_perm_erase.mp handling.placed).2

theorem Handling.incRecvRef (handling : Handling heap network obj) (other : Pointer) :
    Handling heap (network.incRecvRef other) obj :=
  ⟨handling.whole, handling.placed⟩

theorem Handling.place (handling : Handling heap network obj) {next : Network Pointer}
    (connectorMgr : next.connectorMgr = network.connectorMgr)
    (counts : ∀ other, next.places.count other = (obj :: network.places).count other) :
    Held heap next := by
  refine ⟨connectorMgr ▸ handling.whole, ?_⟩
  rw [connectorMgr]
  exact (List.perm_iff_count.mpr counts).trans handling.placed

theorem Handling.accept (handling : Handling heap network obj) :
    Held heap { network with accepting := network.accepting ++ [obj] } := by
  refine handling.place rfl fun other => ?_
  simp only [places, List.count_append, List.count_cons, List.count_nil]
  omega

theorem Handling.post (handling : Handling heap network obj) :
    Held heap { network with posted := network.posted ++ [obj] } := by
  refine handling.place rfl fun other => ?_
  simp only [places, List.count_append, List.count_cons, List.count_nil]
  omega

theorem Handling.connect (handling : Handling heap network obj) :
    Held heap { network with connected := network.connected ++ [obj] } := by
  refine handling.place rfl fun other => ?_
  simp only [places, List.count_append, List.count_cons, List.count_nil]
  omega

theorem Handling.drop (handling : Handling heap network obj) :
    Held heap { network with dropped := network.dropped ++ [obj] } := by
  refine handling.place rfl fun other => ?_
  simp only [places, List.count_append, List.count_cons, List.count_nil]
  omega

theorem Handling.forget (handling : Handling heap network obj) :
    Held heap { network with forgotten := network.forgotten ++ [obj] } := by
  refine handling.place rfl fun other => ?_
  simp only [places, List.count_append, List.count_cons, List.count_nil]
  omega

/-! The functions of `Network`. Of the back-log only `AcceptPrepare` makes more. -/

theorem Handling.disconnect (handling : Handling heap network obj) :
    Held heap (network.disconnect obj) := by
  rw [Network.disconnect]
  split
  · exact handling.post
  · exact handling.drop

omit [DecidableEq Pointer] in
theorem disconnect_backlog : (network.disconnect obj).backlog = network.backlog + 1 := by
  rw [Network.disconnect]
  split
  · simp only [backlog, List.length_append, List.length_singleton]
    omega
  · simp only [backlog, List.length_append, List.length_singleton]
    omega

theorem acceptPrepare_held (held : Held heap network)
    (fits : ObjectPoolMgrBase.Fits network.connectorMgr .getFreeObject) (prepared : Prepared) :
    Held heap (network.acceptPrepare heap prepared) := by
  have taken := (held.take fits).1
  rw [acceptPrepare]
  dsimp only
  split
  · split
    · exact (taken.incRecvRef _).accept
    · exact (taken.incRecvRef _).disconnect
  · exact taken.drop

theorem acceptPrepare_backlog (network : Network Pointer) (prepared : Prepared) :
    (network.acceptPrepare heap prepared).backlog = network.backlog + 1 := by
  rw [acceptPrepare]
  dsimp only
  split
  · split
    · simp only [backlog, incRecvRef, List.length_append, List.length_singleton]
      omega
    · exact disconnect_backlog
  · simp only [backlog, List.length_append, List.length_singleton]
    omega

theorem Handling.receive (handling : Handling heap network obj) (received : Received) :
    Held heap (network.receive obj received) := by
  rw [Network.receive]
  split
  · dsimp only
    split
    · exact (handling.incRecvRef obj).connect
    · exact (handling.incRecvRef obj).setFreeObject
  · exact handling.setFreeObject

theorem receive_backlog (network : Network Pointer) (received : Received) :
    (network.receive obj received).backlog = network.backlog := by
  rw [Network.receive]
  split
  · dsimp only
    split
    · rfl
    · rfl
  · rfl

theorem setFreeObject_fits {mgr : ObjectPoolMgrBase Pointer}
    (fits : ObjectPoolMgrBase.Fits mgr .getFreeObject) :
    ObjectPoolMgrBase.Fits (mgr.setFreeObject obj) .getFreeObject := by
  rw [ObjectPoolMgrBase.setFreeObject]
  split
  · intro empty
    cases empty
  · exact fits

theorem receive_fits (received : Received)
    (fits : ObjectPoolMgrBase.Fits network.connectorMgr .getFreeObject) :
    ObjectPoolMgrBase.Fits (network.receive obj received).connectorMgr .getFreeObject := by
  rw [Network.receive]
  split
  · dsimp only
    split
    · exact fits
    · exact setFreeObject_fits fits
  · exact setFreeObject_fits fits

theorem acceptSocket_held (held : Held heap network)
    (fits : ObjectPoolMgrBase.Fits network.connectorMgr .getFreeObject) (received : Received) :
    Held heap (network.acceptSocket heap received) := by
  obtain ⟨taken, valid⟩ := held.take fits
  rw [acceptSocket, if_neg valid]
  exact taken.receive received

theorem acceptSocket_backlog (network : Network Pointer) (received : Received) :
    (network.acceptSocket heap received).backlog = network.backlog := by
  rw [acceptSocket]
  split
  · rfl
  · exact receive_backlog _ received

theorem Handling.doConnect (handling : Handling heap network obj) (connected : Connected) :
    Held heap (network.doConnect obj connected) := by
  rw [Network.doConnect]
  split
  · split
    · exact handling.receive connected.received
    · exact handling.setFreeObject
  · exact handling.setFreeObject

theorem doConnect_backlog (network : Network Pointer) (connected : Connected) :
    (network.doConnect obj connected).backlog = network.backlog := by
  rw [Network.doConnect]
  split
  · split
    · exact receive_backlog network connected.received
    · rfl
  · rfl

theorem connect_held (held : Held heap network)
    (fits : ObjectPoolMgrBase.Fits network.connectorMgr .getFreeObject) (overload : Overload)
    (connected : Connected) : Held heap (network.connect heap overload connected) := by
  obtain ⟨taken, valid⟩ := held.take fits
  rw [connect, if_neg valid]
  split
  · exact taken.doConnect connected
  · exact taken.forget

theorem connect_backlog (network : Network Pointer) (overload : Overload)
    (connected : Connected) :
    (network.connect heap overload connected).backlog = network.backlog := by
  rw [connect]
  dsimp only
  split
  · rfl
  · split
    · exact doConnect_backlog _ connected
    · rfl

/-! Runs. -/

theorem step_held (held : Held heap network) (event : Event Pointer) (fits : Fits network event) :
    Held heap (network.step heap event) := by
  cases event with
  | prepare prepared => exact acceptPrepare_held held fits prepared
  | acceptDone obj received prepared =>
      rw [step]
      split
      · rename_i out
        exact acceptPrepare_held ((held.dequeue_accepting out).receive received)
          (receive_fits received fits) prepared
      · exact held
  | postedDone obj received prepared =>
      rw [step]
      split
      · rename_i out
        exact acceptPrepare_held ((held.dequeue_posted out).receive received)
          (receive_fits received fits) prepared
      · exact held
  | acceptFailed obj =>
      rw [step]
      split
      · rename_i out
        exact (held.dequeue_accepting out).drop
      · exact held
  | acceptSocket received => exact acceptSocket_held held fits received
  | connect overload connected => exact connect_held held fits overload connected
  | release obj dwRecvRef =>
      rw [step]
      split
      · rename_i out
        have freed := (held.dequeue_connected out).setFreeObject
        exact ⟨freed.whole, freed.placed⟩
      · exact held

def Event.prepares : Event Pointer → Nat
  | .prepare _ => 1
  | _ => 0

theorem step_backlog (network : Network Pointer) (event : Event Pointer) :
    (network.step heap event).backlog =
      network.backlog + event.prepares := by
  cases event with
  | prepare prepared => exact acceptPrepare_backlog network prepared
  | acceptDone obj received prepared =>
      rw [step]
      split
      · rename_i out
        have some := List.length_pos_of_mem out
        rw [acceptPrepare_backlog, doAccept, receive_backlog]
        simp only [backlog, List.length_erase_of_mem out, Event.prepares]
        omega
      · rfl
  | postedDone obj received prepared =>
      rw [step]
      split
      · rename_i out
        have some := List.length_pos_of_mem out
        rw [acceptPrepare_backlog, doAccept, receive_backlog]
        simp only [backlog, List.length_erase_of_mem out, Event.prepares]
        omega
      · rfl
  | acceptFailed obj =>
      rw [step]
      split
      · rename_i out
        have some := List.length_pos_of_mem out
        simp only [backlog, List.length_erase_of_mem out, List.length_append,
          List.length_singleton, Event.prepares]
        omega
      · rfl
  | acceptSocket received => exact acceptSocket_backlog network received
  | connect overload connected => exact connect_backlog network overload connected
  | release obj dwRecvRef =>
      rw [step]
      split
      · rfl
      · rfl

theorem run_backlog (network : Network Pointer) (events : List (Event Pointer)) :
    (network.run heap events).backlog = network.backlog + (events.map Event.prepares).sum := by
  induction events generalizing network with
  | nil => rfl
  | cons event rest ih =>
      rw [run, List.foldl_cons]
      refine (ih _).trans ?_
      rw [step_backlog, List.map_cons, List.sum_cons]
      omega

end Steps

/-- Every object in use has one place and no free object has one, and of the accepts prepared at
the start as many are still out as none was left behind for. -/
theorem connectors_accounted [DecidableEq Pointer] (heap : Heap Pointer)
    (events : List (Event Pointer)) (fits : Run.Along (step heap) Fits (start heap) events) :
    let network := (start heap).run heap events
    network.places.Perm network.connectorMgr.usedList ∧
      (network.connectorMgr.freeList ++ network.places).Nodup ∧
      network.accepting.length + network.posted.length + network.dropped.length =
        (events.map Event.prepares).sum := by
  have held : Held heap ((start heap).run heap events) := Run.Along.invariant
    (fun network event (held : Held heap network) fits => step_held held event fits)
    (start_held heap) fits
  have none : (start heap).backlog = 0 := rfl
  refine ⟨held.placed, ?_, ?_⟩
  · rw [(held.placed.append_left _).nodup_iff]
    exact ObjectPoolMgrBase.nodup_lists held.whole
  · have backlog : ((start heap).run heap events).backlog = _ := run_backlog (start heap) events
    rw [none, Nat.zero_add] at backlog
    exact backlog

/-- Two accepts are prepared. One is refused, posted and refused again, and the other one fails. -/
def oneLeft : List (Event Nat) :=
  [.prepare ⟨true, true⟩, .prepare ⟨true, false⟩, .postedDone 2 ⟨false, false⟩ ⟨true, false⟩,
    .acceptFailed 1, .connect .narrow ⟨false, true, true, ⟨true, true⟩⟩]

theorem connectors_accounted_oneLeft :
    let network := (start ObjectPoolMgrBase.numbered).run ObjectPoolMgrBase.numbered oneLeft
    network.posted = [2] ∧ network.dropped = [1] ∧ network.forgotten = [3] ∧
      network.accepting.length + network.posted.length + network.dropped.length =
        (oneLeft.map Event.prepares).sum := by
  have small (network : Network Nat) (ten : network.connectorMgr.poolCount = 10) :
      ObjectPoolMgrBase.Fits network.connectorMgr .getFreeObject := by
    intro _
    omega
  have fits : Run.Along (step ObjectPoolMgrBase.numbered) Fits (start ObjectPoolMgrBase.numbered)
      oneLeft :=
    ⟨small _ (by decide), small _ (by decide), small _ (by decide), trivial,
      small _ (by decide), trivial⟩
  refine ⟨by decide, by decide, by decide, ?_⟩
  exact (connectors_accounted ObjectPoolMgrBase.numbered oneLeft fits).2.2

end Network

end ProjectPl
