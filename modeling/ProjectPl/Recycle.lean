import ProjectPl.IoCounts

/-!
Giving a `Connector` back to the pool, and the requests outstanding when that happens. Whatever
is refused or fails, a count is never below the number of requests outstanding as long as no
posted completion takes back the count of a receive that is still out.
-/

namespace ProjectPl

open Connector

theorem UInt32.toNat_sub_one {count : UInt32} (some : 0 < count.toNat) :
    (count - 1).toNat = count.toNat - 1 := by
  have one : (1 : UInt32) ≤ count := by
    rw [UInt32.le_iff_toNat_le]
    exact some
  rw [UInt32.toNat_sub_of_le _ _ one]
  rfl

namespace Channel

/-! What the counts cover. -/

structure SendsCovered (channel : Channel) : Prop where
  covered : channel.sends.length ≤ channel.conn.dwSendRef.toNat
  one : channel.conn.dwSendRef.toNat ≤ 1

structure RecvsCovered (channel : Channel) : Prop where
  covered : channel.recvs ≤ channel.conn.dwRecvRef.toNat
  one : channel.recvs ≤ 1

theorem SameRecvSide.recvsCovered {channel next : Channel} (side : SameRecvSide channel next)
    (covered : channel.RecvsCovered) : next.RecvsCovered := by
  refine ⟨?_, ?_⟩
  · rw [side.recvs, side.count]
    exact covered.covered
  · rw [side.recvs]
    exact covered.one

theorem SameSendSide.sendsCovered {channel next : Channel} (side : SameSendSide channel next)
    (covered : channel.SendsCovered) : next.SendsCovered := by
  refine ⟨?_, ?_⟩
  · rw [side.sends, side.count]
    exact covered.covered
  · rw [side.count]
    exact covered.one

theorem sendPrepare_skips_or_counts (channel : Channel) :
    channel.sendPrepare = (channel, 0) ∨
      channel.conn.dwSendRef = 0 ∧ channel.sendPrepare.1.conn.dwSendRef = 1 ∧
        channel.sendPrepare.1.sends = channel.sends := by
  cases queue : channel.conn.sendQueue with
  | nil => exact Or.inl (sendPrepare_empty queue)
  | cons front rest =>
      by_cases busy : 0 < channel.conn.dwSendRef
      · rw [sendPrepare, sendPrepare_busy busy]
        exact Or.inl rfl
      · have idle : channel.conn.dwSendRef = 0 :=
          UInt32.le_antisymm (UInt32.not_lt.mp busy) UInt32.zero_le
        rw [sendPrepare, sendPrepare_pops queue busy]
        exact Or.inr ⟨idle, congrArg (· + 1) idle, rfl⟩

theorem SendsCovered.of_none {channel : Channel} (none : channel.sends = [])
    (one : channel.conn.dwSendRef = 0 ∨ channel.conn.dwSendRef = 1) : channel.SendsCovered := by
  refine ⟨?_, ?_⟩
  · rw [none]
    exact Nat.zero_le _
  · rcases one with zero | one
    · rw [zero]
      decide
    · rw [one]
      decide

theorem SendsCovered.none_of_zero {channel : Channel} (covered : channel.SendsCovered)
    (zero : channel.conn.dwSendRef = 0) : channel.sends = [] := by
  have bound := covered.covered
  rw [zero] at bound
  exact List.length_eq_zero_iff.mp (Nat.le_zero.mp bound)

theorem SendsCovered.one_of_out {channel : Channel} (covered : channel.SendsCovered)
    {bytes : List UInt8} {rest : List (List UInt8)} (out : channel.sends = bytes :: rest) :
    channel.conn.dwSendRef = 1 ∧ rest = [] := by
  have bound := covered.covered
  have one := covered.one
  rw [out, List.length_cons] at bound
  refine ⟨UInt32.toNat_inj.mp ?_, List.length_eq_zero_iff.mp (by omega)⟩
  rw [UInt32.toNat_one]
  omega

theorem wsaSend_covered {channel : Channel} {accepts : Bool} (none : channel.sends = [])
    (one : channel.conn.dwSendRef = 1) : (channel.wsaSend accepts).SendsCovered := by
  have still : channel.SendsCovered := SendsCovered.of_none none (Or.inr one)
  unfold wsaSend
  split
  · exact ⟨still.covered, still.one⟩
  · split
    · refine ⟨?_, still.one⟩
      dsimp only
      rw [none, one]
      exact le_refl 1
    · exact still

theorem sendOn_covered {channel : Channel} {accepts : Bool} (none : channel.sends = [])
    (one : channel.conn.dwSendRef = 1) : (channel.sendOn accepts).SendsCovered := by
  unfold sendOn
  split
  · exact wsaSend_covered none one
  · exact (disconnect_sendSide _).sendsCovered (wsaSend_covered none one)

theorem addSendQueue_sends (channel : Channel) (pSendData : List UInt8) :
    (channel.addSendQueue pSendData).1.sends = channel.sends ∧
      (channel.addSendQueue pSendData).1.conn.dwSendRef = channel.conn.dwSendRef ∧
      (0 ≤ (channel.addSendQueue pSendData).2 →
        (channel.addSendQueue pSendData).1.conn.sendQueue ≠ []) := by
  simp only [addSendQueue, Connector.addSendQueue]
  split
  · refine ⟨trivial, rfl, ?_⟩
    intro sound
    exact absurd sound (by omega)
  · refine ⟨trivial, rfl, ?_⟩
    simp

theorem write_covered {channel : Channel} (covered : channel.SendsCovered)
    (pSendData : List UInt8) (accepts : Bool) :
    (channel.write pSendData accepts).1.SendsCovered := by
  obtain ⟨sends, count, waits⟩ := addSendQueue_sends channel pSendData
  simp only [write]
  generalize channel.addSendQueue pSendData = result at sends count waits
  have kept : result.1.SendsCovered := by
    refine ⟨?_, ?_⟩
    · rw [sends, count]
      exact covered.covered
    · rw [count]
      exact covered.one
  split
  · split
    · exact kept
    · split
      · rename_i sound zero
        have idle : result.1.conn.dwSendRef = 0 := UInt32.le_antisymm zero UInt32.zero_le
        have none := kept.none_of_zero idle
        obtain ⟨front, rest, queue⟩ := List.exists_cons_of_ne_nil (waits (by omega))
        have ready : result.1.sendPrepare.1.conn.dwSendRef = 1 := by
          rw [sendPrepare, sendPrepare_pops queue (by rw [idle]; decide)]
          exact congrArg (· + 1) idle
        split
        · exact SendsCovered.of_none none (Or.inr ready)
        · exact wsaSend_covered none ready
      · exact kept
  · exact covered

theorem sendComplete_counts {channel : Channel} (one : channel.conn.dwSendRef = 1)
    (dwSendSize : Nat) :
    (channel.sendComplete dwSendSize).1.conn.dwSendRef = 1 ∨
      (channel.sendComplete dwSendSize).2 = 0 ∧
        (channel.sendComplete dwSendSize).1.conn.dwSendRef = 0 := by
  cases requested : channel.conn.sendRequest with
  | none =>
      rw [sendComplete, sendComplete_spurious requested]
      exact Or.inl one
  | some buffer =>
      by_cases partly : dwSendSize < buffer.nDataSize
      · rw [sendComplete, sendComplete_partly requested partly]
        exact Or.inl one
      · rw [sendComplete, sendComplete_wholly requested partly]
        exact Or.inr ⟨rfl, congrArg (· - 1) one⟩

theorem doSend_covered {channel : Channel} {dwSendCompleteSize : Nat} {accepts : Bool}
    (none : channel.sends = []) (one : channel.conn.dwSendRef = 1) :
    (channel.doSend dwSendCompleteSize accepts).SendsCovered := by
  have counts := sendComplete_counts one dwSendCompleteSize
  have sends : (channel.sendComplete dwSendCompleteSize).1.sends = [] := none
  simp only [doSend]
  generalize channel.sendComplete dwSendCompleteSize = result at counts sends
  split
  · rename_i more
    rcases counts with busy | ⟨done, -⟩
    · exact sendOn_covered sends busy
    · omega
  · rcases sendPrepare_skips_or_counts result.1 with skips | ⟨-, ready, same⟩
    · rw [skips, if_neg (lt_irrefl _)]
      exact SendsCovered.of_none sends (counts.symm.imp And.right id)
    · split
      · exact sendOn_covered (same.trans sends) ready
      · exact SendsCovered.of_none (same.trans sends) (Or.inr ready)

theorem doRecv_covered {channel : Channel} {self : Nat} {completion : Completion} {accepts : Bool}
    (none : channel.recvs = 0) (counted : 0 < channel.conn.dwRecvRef.toNat) :
    (channel.doRecv self completion accepts).RecvsCovered := by
  obtain ⟨count, -, -⟩ := channel.conn.recvComplete_counts self completion
  have back : (channel.conn.recvComplete self completion).1.recvPrepare.1.dwRecvRef =
      channel.conn.dwRecvRef := by
    rw [show ∀ conn : Connector, conn.recvPrepare.1.dwRecvRef = conn.dwRecvRef + 1 from
      fun _ => rfl, count]
    exact UInt32.sub_add_cancel _ _
  rw [doRecv]
  generalize channel.conn.recvComplete self completion = result at count back
  dsimp only
  split
  · exact ⟨none ▸ Nat.zero_le _, none ▸ Nat.zero_le _⟩
  · rw [if_pos (recvPrepare_ready _), wsaRecv]
    split
    · refine ⟨?_, ?_⟩
      · dsimp only
        rw [back, none]
        exact counted
      · exact congrArg (· + 1) none |>.le
    · exact ⟨none ▸ Nat.zero_le _, none ▸ Nat.zero_le _⟩

/-! What `TryRelease` changes: it closes the socket, and gives the object back if no session
holds it. -/

structure Tried (channel next : Channel) : Prop where
  sends : next.sends = channel.sends
  recvs : next.recvs = channel.recvs
  sendRef : next.conn.dwSendRef = channel.conn.dwSendRef
  recvRef : next.conn.dwRecvRef = channel.conn.dwRecvRef
  closed : channel.conn.active = false → next.conn.active = false
  freed : next.inUse = false → channel.inUse = true →
    channel.conn.param = none ∧ next.conn.active = false

theorem tryRelease_tried (channel : Channel) : Tried channel channel.tryRelease := by
  cases session : channel.conn.param with
  | none =>
      rw [tryRelease, Connector.tryRelease, session]
      exact ⟨rfl, rfl, rfl, rfl, fun _ => rfl, fun _ _ => ⟨session, rfl⟩⟩
  | some owner =>
      rw [tryRelease, Connector.tryRelease, session]
      refine ⟨rfl, rfl, rfl, rfl, fun _ => rfl, ?_⟩
      intro freed used
      rw [used] at freed
      cases freed

theorem noBytes_tried (channel : Channel) (netOp : NetworkOperator) {counted : Connector}
    (taken : (if channel.conn.dwSendRef ≠ 0 ∨ channel.conn.dwRecvRef ≠ 0 then
      decRef channel.conn netOp else channel.conn) = counted) :
    Tried { channel with conn := counted } (channel.noBytes netOp) ∧
      ((channel.noBytes netOp).inUse = false → channel.inUse = true →
        counted.dwSendRef = 0 ∨ counted.dwRecvRef = 0) := by
  simp only [noBytes, taken]
  split
  · rename_i zero
    refine ⟨tryRelease_tried _, fun _ _ => ?_⟩
    exact zero.imp (UInt32.le_antisymm · UInt32.zero_le) (UInt32.le_antisymm · UInt32.zero_le)
  · refine ⟨⟨rfl, rfl, rfl, rfl, id, ?_⟩, ?_⟩
    · intro freed used
      exact absurd (freed.symm.trans used) (by decide)
    · intro freed used
      exact absurd (freed.symm.trans used) (by decide)

structure Recycled (channel : Channel) : Prop where
  used : channel.inUse = true → channel.SendsCovered ∧ channel.RecvsCovered
  idle : channel.inUse = false →
    channel.conn.active = false ∧ channel.sends = [] ∧ channel.recvs = 0

theorem Recycled.of_used {channel : Channel} (used : channel.inUse = true)
    (sends : channel.SendsCovered) (recvs : channel.RecvsCovered) : channel.Recycled := by
  refine ⟨fun _ => ⟨sends, recvs⟩, ?_⟩
  intro freed
  exact absurd (freed.symm.trans used) (by decide)

theorem Tried.recycled {channel next : Channel} (tried : Tried channel next)
    (used : channel.inUse = true) (sends : channel.SendsCovered) (recvs : channel.RecvsCovered)
    (none : next.inUse = false → channel.conn.param = none →
      channel.sends = [] ∧ channel.recvs = 0) : next.Recycled := by
  refine ⟨fun _ => ⟨⟨?_, ?_⟩, ⟨?_, ?_⟩⟩, ?_⟩
  · rw [tried.sends, tried.sendRef]
    exact sends.covered
  · rw [tried.sendRef]
    exact sends.one
  · rw [tried.recvs, tried.recvRef]
    exact recvs.covered
  · rw [tried.recvs]
    exact recvs.one
  · intro freed
    obtain ⟨session, closed⟩ := tried.freed freed used
    rw [tried.sends, tried.recvs]
    exact ⟨closed, none freed session⟩

/-- While the object is in use: a send of no bytes ends on it without a session only with no
receive out, a receive of no bytes takes the last count only with no send counted, a posted
completion does not take the count of a receive that is out, and a session lets go of it only
with no receive out and no send counted. -/
def Drained (channel : Channel) (event : Event) : Prop :=
  channel.inUse = true → match event with
    | .sendDone dwIOSize _ => dwIOSize = 0 → channel.conn.param = none → channel.recvs = 0
    | .recvDone completion _ => completion.chunk = [] → channel.conn.param = none →
        channel.conn.dwRecvRef = 1 → channel.conn.dwSendRef = 0
    | .postedDone => (channel.recvs = 0 ∨ 1 < channel.conn.dwRecvRef) ∧
        (channel.conn.param = none → (channel.conn.dwSendRef = 0 → channel.recvs = 0) ∧
          (channel.conn.dwRecvRef = 1 → channel.conn.dwSendRef = 0))
    | .tryRelease => channel.conn.param = none →
        channel.recvs = 0 ∧ channel.conn.dwSendRef = 0
    | .release => channel.recvs = 0 ∧ channel.conn.dwSendRef = 0
    | _ => True

theorem start_recycled (opening : Opening) (heap : Nat → UInt8) :
    (start opening heap).Recycled := by
  cases opening with
  | connect =>
      exact Recycled.of_used rfl (SendsCovered.of_none rfl (Or.inl rfl))
        ⟨show 1 ≤ (1 : UInt32).toNat by decide, le_refl 1⟩
  | acceptThread =>
      exact Recycled.of_used rfl (SendsCovered.of_none rfl (Or.inl rfl))
        ⟨show 1 ≤ (1 : UInt32).toNat by decide, le_refl 1⟩
  | accept =>
      exact Recycled.of_used rfl (SendsCovered.of_none rfl (Or.inl rfl))
        ⟨show 1 ≤ (2 : UInt32).toNat by decide, le_refl 1⟩

theorem sub_one_eq_zero {count : UInt32} (zero : count - 1 = 0) : count = 1 := by
  have back := congrArg (· + 1) zero
  simpa using back

theorem noBytes_send_recycled {channel : Channel} (used : channel.inUse = true)
    (empty : channel.sends = []) (one : channel.conn.dwSendRef = 1)
    (recvs : channel.RecvsCovered) (drained : channel.conn.param = none → channel.recvs = 0) :
    (channel.noBytes .opSend).Recycled := by
  have zero : (decRef channel.conn .opSend).dwSendRef = 0 := congrArg (· - 1) one
  obtain ⟨tried, -⟩ := noBytes_tried channel .opSend (if_pos (Or.inl (by rw [one]; decide)))
  apply tried.recycled used
  · exact SendsCovered.of_none empty (Or.inl zero)
  · exact ⟨recvs.covered, recvs.one⟩
  · intro _ session
    exact ⟨empty, drained session⟩

theorem noBytes_recv_recycled {channel : Channel} (used : channel.inUse = true)
    (empty : channel.recvs = 0) (counted : 0 < channel.conn.dwRecvRef.toNat)
    (sends : channel.SendsCovered) (drained : channel.conn.param = none →
      channel.conn.dwRecvRef = 1 → channel.conn.dwSendRef = 0) :
    (channel.noBytes .opRecv).Recycled := by
  have some : channel.conn.dwRecvRef ≠ 0 := by
    intro zero
    rw [zero] at counted
    exact absurd counted (by decide)
  obtain ⟨tried, guard⟩ := noBytes_tried channel .opRecv (if_pos (Or.inr some))
  apply tried.recycled used
  · exact ⟨sends.covered, sends.one⟩
  · exact ⟨empty ▸ Nat.zero_le _, empty ▸ Nat.zero_le _⟩
  · intro freed session
    refine ⟨sends.none_of_zero ?_, empty⟩
    rcases guard freed used with zero | last
    · exact zero
    · exact drained session (sub_one_eq_zero last)

theorem noBytes_posted_recycled {channel : Channel} (used : channel.inUse = true)
    (sends : channel.SendsCovered) (recvs : channel.RecvsCovered)
    (spare : channel.recvs = 0 ∨ 1 < channel.conn.dwRecvRef)
    (drained : channel.conn.param = none → (channel.conn.dwSendRef = 0 → channel.recvs = 0) ∧
      (channel.conn.dwRecvRef = 1 → channel.conn.dwSendRef = 0)) :
    (channel.noBytes .opRecv).Recycled := by
  by_cases counted : channel.conn.dwSendRef ≠ 0 ∨ channel.conn.dwRecvRef ≠ 0
  · obtain ⟨tried, guard⟩ := noBytes_tried channel .opRecv (if_pos counted)
    apply tried.recycled used
    · exact ⟨sends.covered, sends.one⟩
    · refine ⟨?_, recvs.one⟩
      rcases spare with empty | spare
      · exact empty ▸ Nat.zero_le _
      · have bound := recvs.one
        have more : 1 < channel.conn.dwRecvRef.toNat := UInt32.lt_iff_toNat_lt.mp spare
        show channel.recvs ≤ (channel.conn.dwRecvRef - 1).toNat
        rw [UInt32.toNat_sub_one (by omega)]
        omega
    · intro freed session
      obtain ⟨noRecv, noSend⟩ := drained session
      have zero : channel.conn.dwSendRef = 0 := by
        rcases guard freed used with zero | last
        · exact zero
        · exact noSend (sub_one_eq_zero last)
      exact ⟨sends.none_of_zero zero, noRecv zero⟩
  · obtain ⟨tried, -⟩ := noBytes_tried channel .opRecv (if_neg counted)
    simp only [ne_eq, not_or, Decidable.not_not] at counted
    refine tried.recycled used ⟨sends.covered, sends.one⟩ ⟨recvs.covered, recvs.one⟩ ?_
    intro _ session
    exact ⟨sends.none_of_zero counted.1, (drained session).1 counted.1⟩

theorem Recycled.of_freed {channel : Channel} (freed : channel.inUse = false)
    (closed : channel.conn.active = false) (noSend : channel.sends = [])
    (noRecv : channel.recvs = 0) : channel.Recycled := by
  refine ⟨?_, fun _ => ⟨closed, noSend, noRecv⟩⟩
  intro used
  exact absurd (freed.symm.trans used) (by decide)

theorem step_recycled_of_freed (self : Nat) {channel : Channel} (recycled : channel.Recycled)
    (event : Event) (freed : channel.inUse = false) : (channel.step self event).Recycled := by
  obtain ⟨closed, noSend, noRecv⟩ := recycled.idle freed
  cases event with
  | write pSendData accepts =>
      simp only [step, write, closed]
      exact recycled
  | sendDone dwIOSize accepts =>
      simp only [step, dequeueSend, noSend]
      exact recycled
  | recvDone completion accepts =>
      simp only [step, dequeueRecv, noRecv, ↓reduceIte]
      exact recycled
  | postedDone =>
      simp only [step, dequeuePosted]
      split
      · exact recycled
      · obtain ⟨tried, -⟩ := noBytes_tried { channel with posted := channel.posted - 1 } .opRecv rfl
        refine Recycled.of_freed (noBytes_freed freed) (tried.closed ?_)
          (tried.sends.trans noSend) (tried.recvs.trans noRecv)
        split
        · exact closed
        · exact closed
  | sendFailed =>
      simp only [step, dequeueSend, noSend]
      exact recycled
  | recvFailed =>
      simp only [step, dequeueRecv, noRecv, ↓reduceIte]
      exact recycled
  | disconnect => exact Recycled.of_freed freed rfl noSend noRecv
  | setParam session => exact Recycled.of_freed freed closed noSend noRecv
  | tryRelease =>
      exact Recycled.of_freed (tryRelease_freed freed) ((tryRelease_tried channel).closed closed)
        noSend noRecv
  | release =>
      exact Recycled.of_freed (tryRelease_freed freed) ((tryRelease_tried _).closed closed)
        noSend noRecv

theorem step_recycled (self : Nat) (channel : Channel) (event : Event)
    (recycled : channel.Recycled) (drained : channel.Drained event) :
    (channel.step self event).Recycled := by
  cases used : channel.inUse with
  | false => exact step_recycled_of_freed self recycled event used
  | true =>
      obtain ⟨sends, recvs⟩ := recycled.used used
      have drained := drained used
      cases event with
      | write pSendData accepts =>
          have side := write_recvSide channel pSendData accepts
          exact Recycled.of_used (side.inUse.trans used) (write_covered sends pSendData accepts)
            (side.recvsCovered recvs)
      | sendDone dwIOSize accepts =>
          simp only [step, dequeueSend]
          cases out : channel.sends with
          | nil => exact Recycled.of_used used sends recvs
          | cons bytes rest =>
              obtain ⟨one, rfl⟩ := sends.one_of_out out
              dsimp only
              by_cases closed : dwIOSize = 0
              · rw [if_pos closed]
                exact noBytes_send_recycled used rfl one ⟨recvs.covered, recvs.one⟩
                  (drained closed)
              · rw [if_neg closed]
                refine Recycled.of_used ?_ (doSend_covered rfl one) ?_
                · exact (doSend_recvSide _ dwIOSize accepts).inUse.trans used
                · exact (doSend_recvSide _ dwIOSize accepts).recvsCovered
                    ⟨recvs.covered, recvs.one⟩
      | recvDone completion accepts =>
          simp only [step, dequeueRecv]
          split
          · exact Recycled.of_used used sends recvs
          · have one := recvs.one
            have covered := recvs.covered
            have taken : channel.recvs - 1 = 0 := by omega
            have counted : 0 < channel.conn.dwRecvRef.toNat := by omega
            by_cases closed : completion.chunk = []
            · rw [if_pos closed]
              exact noBytes_recv_recycled used taken counted
                ⟨sends.covered, sends.one⟩ (drained closed)
            · rw [if_neg closed]
              refine Recycled.of_used ?_ ?_ (doRecv_covered taken counted)
              · exact (doRecv_sendSide _ self completion accepts).inUse.trans used
              · exact (doRecv_sendSide _ self completion accepts).sendsCovered
                  ⟨sends.covered, sends.one⟩
      | postedDone =>
          simp only [step, dequeuePosted]
          split
          · exact Recycled.of_used used sends recvs
          · exact noBytes_posted_recycled used ⟨sends.covered, sends.one⟩
              ⟨recvs.covered, recvs.one⟩ drained.1 drained.2
      | sendFailed =>
          simp only [step, dequeueSend]
          cases out : channel.sends with
          | nil => exact Recycled.of_used used sends recvs
          | cons bytes rest =>
              obtain ⟨one, rfl⟩ := sends.one_of_out out
              exact Recycled.of_used used (SendsCovered.of_none rfl (Or.inr one))
                ⟨recvs.covered, recvs.one⟩
      | recvFailed =>
          simp only [step, dequeueRecv]
          split
          · exact Recycled.of_used used sends recvs
          · refine Recycled.of_used used ⟨sends.covered, sends.one⟩ ⟨?_, ?_⟩
            · exact (Nat.sub_le _ 1).trans recvs.covered
            · exact (Nat.sub_le _ 1).trans recvs.one
      | disconnect =>
          exact Recycled.of_used used ⟨sends.covered, sends.one⟩ ⟨recvs.covered, recvs.one⟩
      | setParam session =>
          exact Recycled.of_used used ⟨sends.covered, sends.one⟩ ⟨recvs.covered, recvs.one⟩
      | tryRelease =>
          refine (tryRelease_tried channel).recycled used sends recvs ?_
          intro _ session
          obtain ⟨noRecv, noSend⟩ := drained session
          exact ⟨sends.none_of_zero noSend, noRecv⟩
      | release =>
          refine (tryRelease_tried _).recycled used ⟨sends.covered, sends.one⟩
            ⟨recvs.covered, recvs.one⟩ ?_
          intro _ _
          exact ⟨sends.none_of_zero drained.2, drained.1⟩

/-- In every run whose steps are all drained, an object that was given back has no send and no
receive outstanding. -/
theorem freed_only_when_idle (self : Nat) (opening : Opening) (heap : Nat → UInt8)
    (events : List Event) (along : Run.Along (step self) Drained (start opening heap) events)
    (freed : (run self (start opening heap) events).inUse = false) :
    (run self (start opening heap) events).sends = [] ∧
      (run self (start opening heap) events).recvs = 0 := by
  have recycled : (run self (start opening heap) events).Recycled :=
    Run.Along.invariant (step_recycled self) (start_recycled opening heap) along
  exact (recycled.idle freed).2

theorem freed_only_when_idle_after_close :
    let events : List Event := [.setParam 1, .write [1] true, .recvDone ⟨[], fun _ => 0⟩ true,
      .sendDone 1 true, .release]
    Run.Along (step 3) Drained (start .accept fun _ => 0) events ∧
      (run 3 (start .accept fun _ => 0) events).inUse = false ∧
      (run 3 (start .accept fun _ => 0) events).sends = [] ∧
      (run 3 (start .accept fun _ => 0) events).recvs = 0 := by
  intro events
  have along : Run.Along (step 3) Drained (start .accept fun _ => 0) events := by
    refine ⟨fun _ => trivial, fun _ => trivial, ?_, ?_, ?_, trivial⟩
    · intro _ _ session
      exact absurd session (by decide)
    · intro _ nothing
      exact absurd nothing (by decide)
    · exact fun _ => ⟨by decide, by decide⟩
  have freed : (run 3 (start .accept fun _ => 0) events).inUse = false := by decide
  exact ⟨along, freed, freed_only_when_idle 3 .accept (fun _ => 0) events along freed⟩

/-- The peer closes while a send is out: the receive count drops to zero, which is enough for
the disconnect branch to give the object back. -/
theorem freed_with_send_outstanding :
    let channel := run 3 (start .connect fun _ => 0)
      [.write [7] true, .recvDone ⟨[], fun _ => 0⟩ true]
    channel.inUse = false ∧ channel.conn.dwSendRef = 1 ∧ channel.sends = [[7]] := by
  decide

end Channel

end ProjectPl
