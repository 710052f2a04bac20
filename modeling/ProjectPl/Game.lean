import ProjectPl.Convergence
import ProjectPl.GameCore
import ProjectPl.ServerPackets
import ProjectPl.Wire

/-!
The whole game against the server alone. Every run of the programs and the network is a run of the
server on the requests that its clients made: it is given the first ones of each client, in
order and as they were made, and each client has processed the first packets that were delivered
to its sessions. So the views of the clients meet the zone over the network as well.
-/

namespace ProjectPl

open LittleEndian

/-! An end that takes several events, one after the other. -/

namespace Endpoint

variable {Out In : Type} (side : Side Out In) (self : Nat) (peerSent : List UInt8)

theorem step_handled {endpoint : Endpoint Out In} {event : WireEvent Out}
    (other : event ≠ .process) :
    (endpoint.step side self peerSent event).handled = endpoint.handled := by
  cases event with
  | process => exact absurd rfl other
  | recvDone dwIOSize heap accepts =>
      rw [step, recvDone]
      split
      · rfl
      · rfl
  | _ => rfl

theorem foldl_handled {endpoint : Endpoint Out In} {events : List (WireEvent Out)}
    (others : ∀ event ∈ events, event ≠ .process) :
    (events.foldl (step side self peerSent) endpoint).handled = endpoint.handled := by
  induction events generalizing endpoint with
  | nil => rfl
  | cons event rest ih =>
      rw [List.foldl_cons, ih fun other member => others other (by simp [member])]
      exact step_handled side self peerSent (others event (by simp))

theorem step_calls (endpoint : Endpoint Out In) :
    (endpoint.step side self peerSent .process).calls =
      endpoint.calls ++ (endpoint.nextCall side).toList := by
  cases queue : endpoint.recvQueue with
  | nil => simp [step, process, nextCall, calls, queue]
  | cons packet rest =>
      simp only [step, process, nextCall, calls, queue, List.filterMap_append, List.head?_cons,
        Option.bind_some]
      rfl

/-- The calls it takes are the first ones of those it is asked to, and all of them while it is
open. -/
theorem foldl_sentCalls (endpoint : Endpoint Out In) (events : List (WireEvent Out)) :
    let next := events.foldl (step side self peerSent) endpoint
    next.sentCalls <+: endpoint.sentCalls ++ events.flatMap WireEvent.calls ∧
      (next.channel.conn.active = true →
        endpoint.channel.conn.active = true ∧
          next.sentCalls = endpoint.sentCalls ++ events.flatMap WireEvent.calls) ∧
      (endpoint.channel.conn.active = false → next.sentCalls = endpoint.sentCalls) := by
  induction events generalizing endpoint with
  | nil => exact ⟨by simp, fun active => ⟨active, by simp⟩, fun _ => rfl⟩
  | cons event rest ih =>
      have written := step_sentCalls side self peerSent endpoint event
      obtain ⟨first, full, stays⟩ := ih (endpoint.step side self peerSent event)
      rw [List.foldl_cons, List.flatMap_cons]
      cases active : endpoint.channel.conn.active with
      | true =>
          rw [active, if_pos rfl] at written
          rw [written, List.append_assoc] at first full
          exact ⟨first, fun later => ⟨rfl, (full later).2⟩, nofun⟩
      | false =>
          have closed := step_closed side self peerSent active event
          rw [active, if_neg Bool.false_ne_true, List.append_nil] at written
          have same := (stays closed).trans written
          refine ⟨same ▸ List.prefix_append _ _, ?_, fun _ => same⟩
          intro later
          have opened := (full later).1
          rw [closed] at opened
          cases opened

end Endpoint

/-- Packets handled as they were sent have been dispatched as they were sent. -/
theorem Handled.calls {Out : Type} {sameAs : Out → Out → Prop} {done : List (Nat × Out)}
    {handled : List (Bool × Dispatch Out)} (all : List.Forall₂ (Handled sameAs) done handled) :
    List.Forall₂ sameAs (done.map Prod.snd) (handled.filterMap fun outcome => outcome.2.call) := by
  induction all with
  | nil => exact List.Forall₂.nil
  | cons here _ ih =>
      obtain ⟨-, received, invoked, same⟩ := here
      rw [List.map_cons, List.filterMap_cons, invoked]
      exact List.Forall₂.cons same ih

theorem Wire.run_server (self : Nat) (wire : Wire) (events : List (WireEvent S2CCall)) :
    wire.run self (events.map Wire.Event.server) =
      { wire with
        server := events.foldl
          (Endpoint.step serverSide self wire.client.channel.sent) wire.server } := by
  induction events generalizing wire with
  | nil => rfl
  | cons event rest ih => exact ih (wire.step self (.server event))

/-! A client makes of a packet received what it would have made of the one sent. -/

namespace CharacterMgr

theorem handle_sameAs (mgr : CharacterMgr) {sent received : S2CCall}
    (same : sent.SameAs received) : mgr.handle received = mgr.handle sent := by
  cases sent with
  | echo sent =>
      cases received with
      | echo received => rfl
      | _ => cases same
  | enterCharacter sent =>
      cases received with
      | enterCharacter received =>
          obtain ⟨count, data⟩ := same
          simp only [handle, s2cEnterCharacter, count]
          refine List.foldl_ext _ _ _ fun current idx listed => ?_
          have inside : idx < sent.count.toNat := List.mem_range.mp listed
          have entry := congrArg (·[idx]?) data
          simp only [List.getElem?_take_of_lt inside] at entry
          rw [entry]
      | _ => cases same
  | _ =>
      cases same
      rfl

theorem foldl_handle_sameAs {sent received : List S2CCall}
    (all : List.Forall₂ S2CCall.SameAs sent received) (mgr : CharacterMgr) :
    received.foldl handle mgr = sent.foldl handle mgr := by
  induction all generalizing mgr with
  | nil => rfl
  | cons same _ ih =>
      rw [List.foldl_cons, List.foldl_cons, handle_sameAs mgr same]
      exact ih _

end CharacterMgr

namespace Game

/-! A run of the game and the run of the server in it. -/

/-- What the clients ask for can be sent, and so can the tokens that the clock gives. -/
def Typed (game : Game) : Event → Prop
  | .client _ event => event.Sends C2SCall.Sendable
  | .process _ env _ => FitsSigned 8 (game.server.nextToken env)
  | _ => True

/-- A session authenticates once, with a token of its own, nobody is released, and `client` does
not leave. -/
def Calm (client : Int) (server : Server) (message : Server.Event) : Prop :=
  server.Steady message ∧ Server.NeverLeaves client server message

def Plays (client : Int) (game : Game) : Event → Prop
  | .process conn env _ => ∀ wire packet, game.wires conn = some wire →
      wire.server.nextCall serverSide = some (.auth packet) →
        (game.server.sender conn).nub.token = 0 ∧
          game.server.userMap[game.server.nextToken env]? = none
  | .doUpdate clock _ => game.server.firingCmds = [] → game.server.releaseList clock = []
  | .fire _ => ∀ zoneId, game.server.fired ≠ some (.leaveCharacter client zoneId)
  | _ => True

def callFrom (conn : Nat) : Server.Event → Option C2SCall
  | .packet other call _ => if other = conn then call else none
  | _ => none

def requestsAt (game : Game) (conn : Nat) : List C2SCall :=
  (game.wires conn).elim [] fun wire => wire.server.calls

def answersAt (game : Game) (conn : Nat) : List S2CCall :=
  (game.wires conn).elim [] fun wire => wire.client.calls

structure Answers (delivered : List S2CCall) (wire : Wire) : Prop where
  first : wire.server.sentCalls.map Prod.snd <+: delivered
  full : wire.server.channel.conn.active = true → wire.server.sentCalls.map Prod.snd = delivered

structure Linked (game : Game) (log : List Server.Event) : Prop where
  server : game.server = Server.run {} log
  fits : game.server.Fits
  numbered : game.server.Numbered
  connected : ∀ conn wire, game.wires conn = some wire → Wire.Connected conn wire
  requests : ∀ conn, log.filterMap (callFrom conn) = game.requestsAt conn
  views : ∀ conn, game.clients conn = (game.answersAt conn).foldl CharacterMgr.handle .new
  sessions : ∀ slot, (game.server.sessions slot).pConnector ≠ none →
    game.connectors (game.server.sessions slot).uid = (game.server.sessions slot).pConnector
  opened : ∀ uid conn, game.connectors uid = some conn → game.wires conn ≠ none
  answers : ∀ conn wire, game.wires conn = some wire →
    Answers (deliveredOn game.connectors conn game.server.delivered) wire

theorem start_linked : Linked {} [] := by
  have unopened (conn : Nat) (wire : Wire) : ({} : Game).wires conn ≠ some wire := nofun
  refine ⟨rfl, Server.start_fits, Server.start_numbered, ?_, fun _ => rfl, fun _ => rfl, ?_, ?_, ?_⟩
  · exact fun conn wire found => absurd found (unopened conn wire)
  · exact fun _ attached => absurd rfl attached
  · exact fun _ _ attached => absurd attached nofun
  · exact fun conn wire found => absurd found (unopened conn wire)

theorem deliveredOn_append (connectors : Nat → Option Nat) (conn : Nat)
    (first later : List Delivery) :
    deliveredOn connectors conn (first ++ later) =
      deliveredOn connectors conn first ++ deliveredOn connectors conn later := by
  rw [deliveredOn, List.filter_append, List.map_append]
  rfl

theorem deliveredOn_congr {connectors others : Nat → Option Nat} (conn : Nat)
    {delivered : List Delivery}
    (same : ∀ delivery ∈ delivered, others delivery.recipient = connectors delivery.recipient) :
    deliveredOn others conn delivered = deliveredOn connectors conn delivered := by
  rw [deliveredOn, deliveredOn, List.filter_congr]
  intro delivery member
  rw [same delivery member]

theorem outgoing_calls (sends : Nat → Nat × Bool) (packets : List S2CCall) :
    ((outgoing sends packets).flatMap WireEvent.calls).map Prod.snd = packets := by
  induction packets generalizing sends with
  | nil => rfl
  | cons packet rest ih =>
      have later := ih fun index => sends (index + 1)
      rw [outgoing, List.mapIdx_cons, List.flatMap_cons, List.map_append]
      exact congrArg (packet :: ·) later

theorem outgoing_spec {sends : Nat → Nat × Bool} {packets : List S2CCall}
    {event : WireEvent S2CCall} (member : event ∈ outgoing sends packets) :
    event ≠ .process ∧ ∀ sendable : S2CCall → Prop,
      (∀ packet ∈ packets, sendable packet) → event.Sends sendable := by
  obtain ⟨index, inside, rfl⟩ := List.mem_mapIdx.mp member
  exact ⟨nofun, fun sendable all => all _ (List.getElem_mem inside)⟩

/-- The server's end sends `more`: all of it while the connection is open, and nothing once it is
closed. -/
theorem Answers.grow {delivered more : List S2CCall} {wire : Wire}
    (answers : Answers delivered wire) (conn : Nat) {events : List (WireEvent S2CCall)}
    (wrote : (events.flatMap WireEvent.calls).map Prod.snd = more) :
    Answers (delivered ++ more) { wire with
      server := events.foldl (Endpoint.step serverSide conn wire.client.channel.sent)
        wire.server } := by
  obtain ⟨begins, all, closed⟩ := Endpoint.foldl_sentCalls serverSide conn
    wire.client.channel.sent wire.server events
  cases active : wire.server.channel.conn.active with
  | true =>
      have before := answers.full active
      refine ⟨?_, ?_⟩
      · have mapped := begins.map Prod.snd
        rw [List.map_append, wrote, before] at mapped
        exact mapped
      · intro later
        dsimp only at later ⊢
        rw [(all later).2, List.map_append, wrote, before]
  | false =>
      refine ⟨?_, ?_⟩
      · dsimp only
        rw [closed active]
        exact answers.first.trans (List.prefix_append _ _)
      · intro later
        have still := (all later).1
        rw [active] at still
        cases still

section Exchange

variable {game : Game} {log : List Server.Event} {thread : ProcessThread}
  {connectors : Nat → Option Nat} {acts : Nat → List (WireEvent S2CCall)} {sends : Sends}

/-- What a step of the server has to keep to: it only adds to what has been delivered, and besides
sending it processes the packets that it is given. -/
structure Serves (game : Game) (messages : List Server.Event) (thread : ProcessThread)
    (connectors : Nat → Option Nat) (acts : Nat → List (WireEvent S2CCall)) : Prop where
  server : thread.server = messages.foldl Server.step game.server
  fits : thread.server.Fits
  numbered : thread.server.Numbered
  delivered : ∃ more, thread.server.delivered = game.server.delivered ++ more
  kept : ∀ uid ≤ game.server.uniqueUserSessionUid, connectors uid = game.connectors uid
  silent : ∀ conn, ∀ event ∈ acts conn, event.calls = [] ∧ event.Sends S2CCall.Sendable
  requests : ∀ conn wire, game.wires conn = some wire →
    ((acts conn).foldl (Endpoint.step serverSide conn wire.client.channel.sent) wire.server).calls =
      wire.server.calls ++ messages.filterMap (callFrom conn)
  unknown : ∀ conn, game.wires conn = none → messages.filterMap (callFrom conn) = []
  sessions : ∀ slot, (thread.server.sessions slot).pConnector ≠ none →
    connectors (thread.server.sessions slot).uid = (thread.server.sessions slot).pConnector
  opened : ∀ uid conn, connectors uid = some conn → game.wires conn ≠ none

theorem Linked.exchange (linked : Linked game log) {messages : List Server.Event}
    (serves : Serves game messages thread connectors acts) (sends : Sends) :
    Linked (game.exchange thread connectors acts sends) (log ++ messages) := by
  obtain ⟨server, fits, numbered, ⟨more, delivered⟩, kept, silent, requests, unknown, sessions,
    opened⟩ := serves
  have sent : thread.server.delivered.drop game.server.delivered.length = more := by
    rw [delivered, List.drop_left]
  have others (conn : Nat) : ∀ event ∈ outgoing (sends conn) (deliveredOn connectors conn more),
      event ≠ .process := fun event member => (outgoing_spec member).1
  have wires (conn : Nat) : (game.exchange thread connectors acts sends).wires conn =
      (game.wires conn).map fun wire => { wire with
        server := (acts conn ++ outgoing (sends conn) (deliveredOn connectors conn more)).foldl
          (Endpoint.step serverSide conn wire.client.channel.sent) wire.server } := by
    simp only [Game.exchange, sent, Wire.run_server]
  refine ⟨?_, fits, numbered, ?_, ?_, ?_, sessions, ?_, ?_⟩
  · rw [Server.run, List.foldl_append]
    exact server.trans (congrArg (messages.foldl Server.step) linked.server)
  · intro conn next found
    rw [wires] at found
    obtain ⟨wire, before, rfl⟩ := Option.map_eq_some_iff.mp found
    rw [← Wire.run_server]
    refine (Wire.run_connected conn (linked.connected conn wire before) ?_).1
    intro event member
    obtain ⟨event, listed, rfl⟩ := List.mem_map.mp member
    rcases List.mem_append.mp listed with act | out
    · exact (silent conn event act).2
    · refine (outgoing_spec out).2 _ ?_
      intro packet there
      obtain ⟨delivery, kept, rfl⟩ := List.mem_map.mp there
      refine fits.delivered delivery ?_
      rw [delivered]
      exact List.mem_append_right _ (List.mem_filter.mp kept).1
  · intro conn
    rw [List.filterMap_append, linked.requests, requestsAt, requestsAt, wires]
    cases found : game.wires conn with
    | none =>
        rw [unknown conn found]
        rfl
    | some wire =>
        simp only [Option.map_some, Option.elim_some]
        rw [← requests conn wire found, List.foldl_append, Endpoint.calls, Endpoint.calls,
          Endpoint.foldl_handled _ _ _ (others conn)]
  · intro conn
    refine (linked.views conn).trans ?_
    rw [answersAt, answersAt, wires]
    cases game.wires conn with
    | none => rfl
    | some wire => rfl
  · intro uid conn attached
    rw [wires]
    exact fun none => opened uid conn attached (Option.map_eq_none_iff.mp none)
  · intro conn next found
    rw [wires] at found
    obtain ⟨wire, before, rfl⟩ := Option.map_eq_some_iff.mp found
    have old : deliveredOn connectors conn game.server.delivered =
        deliveredOn game.connectors conn game.server.delivered :=
      deliveredOn_congr conn fun delivery member =>
        kept _ (linked.numbered.sent delivery member)
    have acted : (acts conn).flatMap WireEvent.calls = [] :=
      List.flatMap_eq_nil_iff.mpr fun event member => (silent conn event member).1
    have wrote : ((acts conn ++ outgoing (sends conn) (deliveredOn connectors conn more)).flatMap
        WireEvent.calls).map Prod.snd = deliveredOn connectors conn more := by
      rw [List.flatMap_append, acted, List.nil_append, outgoing_calls]
    have whole : deliveredOn connectors conn thread.server.delivered =
        deliveredOn game.connectors conn game.server.delivered ++
          deliveredOn connectors conn more := by
      rw [delivered, deliveredOn_append, old]
    have grown := (linked.answers conn wire before).grow conn wrote
    rw [← whole] at grown
    exact grown

end Exchange

/-! Steps that send nothing. -/

section Steps

variable {game : Game} {log : List Server.Event}

theorem Linked.unsent (linked : Linked game log) {message : Server.Event} {next : Server}
    (step : game.server.step message = next) (unasked : ∀ conn, callFrom conn message = none)
    (extends' : Server.Extends game.server next) (fits : next.Fits)
    (delivered : next.delivered = game.server.delivered) :
    Linked { game with thread := { game.thread with server := next } } (log ++ [message]) := by
  refine ⟨?_, fits, extends'.numbered linked.numbered, linked.connected, ?_, linked.views, ?_,
    linked.opened, ?_⟩
  · have before := linked.server
    rw [Server.run] at before ⊢
    rw [List.foldl_append, ← before]
    exact step.symm
  · intro conn
    rw [List.filterMap_append, linked.requests, List.filterMap_cons, unasked]
    exact List.append_nil _
  · intro slot attached
    have connector := extends'.connector slot
    have uid := extends'.uid slot
    simp only [Game.server] at attached connector uid ⊢
    rw [connector] at attached
    rw [uid, connector]
    exact linked.sessions slot attached
  · intro conn wire found
    have before := linked.answers conn wire found
    simp only [Game.server] at before delivered ⊢
    rw [delivered]
    exact before

theorem Linked.rewire (linked : Linked game log) {conn : Nat} {next : Wire}
    {clients : Nat → CharacterMgr} (connected : Wire.Connected conn next)
    (requests : game.requestsAt conn = next.server.calls)
    (views : clients conn = next.client.calls.foldl CharacterMgr.handle .new)
    (others : ∀ other, other ≠ conn → clients other = game.clients other)
    (answers : Answers (deliveredOn game.connectors conn game.server.delivered) next) :
    Linked { game with wires := Function.update game.wires conn (some next), clients } log := by
  refine ⟨linked.server, linked.fits, linked.numbered, ?_, ?_, ?_, linked.sessions, ?_, ?_⟩
  · intro other wire found
    by_cases same : other = conn
    · subst same
      simp only [Function.update_self, Option.some.injEq] at found
      exact found ▸ connected
    · simp only [Function.update_of_ne same] at found
      exact linked.connected other wire found
  · intro other
    rw [linked.requests]
    by_cases same : other = conn
    · subst same
      rw [requests]
      simp only [requestsAt, Function.update_self, Option.elim_some]
    · simp only [requestsAt, Function.update_of_ne same]
  · intro other
    by_cases same : other = conn
    · subst same
      simp only [answersAt, Function.update_self, Option.elim_some]
      exact views
    · simp only [answersAt, Function.update_of_ne same]
      exact (others other same).trans (linked.views other)
  · intro uid other attached
    by_cases same : other = conn
    · subst same
      simp only [Function.update_self]
      exact Option.some_ne_none next
    · simp only [Function.update_of_ne same]
      exact linked.opened uid other attached
  · intro other wire found
    by_cases same : other = conn
    · subst same
      simp only [Function.update_self, Option.some.injEq] at found
      exact found ▸ answers
    · simp only [Function.update_of_ne same] at found
      exact linked.answers other wire found

/-- The messages that a step gives to the server, which are as calm as the step is. -/
def Leads (game : Game) (event : Event) (log : List Server.Event) : Prop :=
  ∃ messages, Linked (game.step event) (log ++ messages) ∧
    ∀ client, Plays client game event → Run.Along Server.step (Calm client) game.server messages

theorem Linked.stays (linked : Linked game log) {event : Event} (same : game.step event = game) :
    Leads game event log :=
  ⟨[], by rw [same, List.append_nil]; exact linked, fun _ _ => trivial⟩

theorem requestsAt_some {conn : Nat} {wire : Wire} (found : game.wires conn = some wire) :
    game.requestsAt conn = wire.server.calls := by
  rw [requestsAt, found]
  rfl

theorem Linked.view (linked : Linked game log) {conn : Nat} {wire : Wire}
    (found : game.wires conn = some wire) :
    game.clients conn = wire.client.calls.foldl CharacterMgr.handle .new := by
  have view := linked.views conn
  rw [answersAt, found] at view
  exact view

theorem connect_linked (linked : Linked game log) (conn : Nat) (opening : Channel.Opening)
    (clientHeap serverHeap : Nat → UInt8) :
    Leads game (.connect conn opening clientHeap serverHeap) log := by
  cases found : game.wires conn with
  | some wire =>
      refine linked.stays ?_
      simp only [step, connect, found]
  | none =>
      have apart : ∀ uid, game.connectors uid ≠ some conn := fun uid attached =>
        linked.opened uid conn attached found
      have nothing : deliveredOn game.connectors conn game.server.delivered = [] := by
        rw [deliveredOn, List.filter_eq_nil_iff.mpr, List.map_nil]
        intro delivery _
        simpa using apart delivery.recipient
      have delivered : (game.server.step (.connect conn)).delivered = game.server.delivered := by
        simp only [Server.step]
        split
        · rfl
        · rfl
      have told : Linked { game with
          thread := { game.thread with server := game.server.step (.connect conn) } }
          (log ++ [.connect conn]) :=
        linked.unsent rfl (fun _ => rfl) (Server.connect_extends game.server conn)
          (Server.step_fits linked.fits trivial) delivered
      refine ⟨[.connect conn], ?_, fun _ _ => ⟨⟨trivial, trivial⟩, trivial⟩⟩
      simp only [step, connect, found]
      refine told.rewire (Wire.start_connected conn opening clientHeap serverHeap) ?_ ?_
        (fun _ _ => rfl) ?_
      · rw [requestsAt]
        dsimp only
        rw [found]
        rfl
      · have view := linked.views conn
        rw [answersAt, found] at view
        exact view
      · simp only [Game.server] at nothing delivered ⊢
        rw [delivered, nothing]
        exact ⟨List.nil_prefix, fun _ => rfl⟩

theorem client_linked (linked : Linked game log) (conn : Nat) {event : WireEvent C2SCall}
    (typed : event.Sends C2SCall.Sendable) : Leads game (.client conn event) log := by
  cases found : game.wires conn with
  | none =>
      refine linked.stays ?_
      simp only [step, client, found]
  | some wire =>
      have connected : Wire.Connected conn (wire.step conn (.client event)) :=
        Wire.step_connected conn (linked.connected conn wire found) typed
      have server : (wire.step conn (.client event)).server = wire.server := rfl
      have requests := requestsAt_some found
      have answers := linked.answers conn wire found
      have view := linked.view found
      refine ⟨[], ?_, fun _ _ => trivial⟩
      rw [List.append_nil]
      simp only [step, client, found]
      refine linked.rewire connected (server ▸ requests) ?_ ?_ ⟨answers.first, answers.full⟩
      · by_cases processes : event = .process
        · subst processes
          have grown := Endpoint.step_calls clientSide conn wire.server.channel.sent wire.client
          rw [Wire.step]
          dsimp only
          rw [grown, List.foldl_append, ← view]
          cases wire.client.nextCall clientSide with
          | none => rfl
          | some call => exact Function.update_self _ _ _
        · have kept : (wire.step conn (.client event)).client.calls = wire.client.calls :=
            congrArg (List.filterMap _) (Endpoint.step_handled clientSide conn _ processes)
          rw [kept, ← view]
          cases event with
          | process => exact absurd rfl processes
          | _ => rfl
      · intro other different
        cases event with
        | process =>
            cases wire.client.nextCall clientSide with
            | none => rfl
            | some call => exact Function.update_of_ne different _ _
        | _ => rfl

theorem network_linked (linked : Linked game log) (conn : Nat) (event : NetworkEvent) :
    Leads game (.network conn event) log := by
  cases found : game.wires conn with
  | none =>
      refine linked.stays ?_
      simp only [step, network, found]
  | some wire =>
      have silent : event.toWire.calls = [] := by cases event <;> rfl
      have other : event.toWire ≠ .process := by cases event <;> nofun
      have connected : Wire.Connected conn (wire.step conn (.server event.toWire)) :=
        Wire.step_connected conn (linked.connected conn wire found)
          (by cases event <;> trivial)
      have calls : (wire.step conn (.server event.toWire)).server.calls = wire.server.calls :=
        congrArg (List.filterMap _) (Endpoint.step_handled serverSide conn _ other)
      have sentCalls : (wire.step conn (.server event.toWire)).server.sentCalls =
          wire.server.sentCalls := by
        have written := Endpoint.step_sentCalls serverSide conn wire.client.channel.sent wire.server
          event.toWire
        rw [silent, ite_self, List.append_nil] at written
        exact written
      have closed (inactive : wire.server.channel.conn.active = false) :
          (wire.step conn (.server event.toWire)).server.channel.conn.active = false :=
        Endpoint.step_closed serverSide conn wire.client.channel.sent inactive event.toWire
      have view := linked.view found
      have answers : Answers (deliveredOn game.connectors conn game.server.delivered)
          (wire.step conn (.server event.toWire)) := by
        obtain ⟨first, full⟩ := linked.answers conn wire found
        refine ⟨sentCalls ▸ first, fun later => ?_⟩
        rw [sentCalls]
        cases active : wire.server.channel.conn.active with
        | true => exact full active
        | false =>
            rw [closed active] at later
            cases later
      cases active : (wire.step conn (.server event.toWire)).server.channel.conn.active with
      | true =>
          refine ⟨[], ?_, fun _ _ => trivial⟩
          rw [List.append_nil]
          simp only [step, network, found, active, if_true]
          exact linked.rewire connected ((requestsAt_some found).trans calls.symm) view
            (fun _ _ => rfl) answers
      | false =>
          have told : Linked { game with
              thread := { game.thread with server := game.server.closeLink conn } }
              (log ++ [.close conn]) :=
            linked.unsent rfl (fun _ => rfl) (.of_same rfl rfl rfl)
              (linked.fits.same rfl rfl rfl) rfl
          refine ⟨[.close conn], ?_, fun _ _ => ⟨⟨trivial, trivial⟩, trivial⟩⟩
          simp only [step, network, found, active, Bool.false_eq_true, if_false]
          exact told.rewire connected ((requestsAt_some found).trans calls.symm) view
            (fun _ _ => rfl) answers

/-- The next packet of a client is whole, and is dispatched as it was sent. -/
theorem arrives {conn : Nat} {wire : Wire} (connected : Wire.Connected conn wire)
    {packet : PacketStruct} {rest : List PacketStruct}
    (queue : wire.server.recvQueue = packet :: rest) :
    packet.pConnector = conn ∧ ProcessThread.checkTail packet = packetCheckTailKey ∧
      ∃ received : C2SCall, received.Received ∧
        serverTable.messageProcess (fun offset => packet.pBuffer offset) packet.nDataSize =
          .invoked received := by
  obtain ⟨⟨-, -, allowed, done, waiting, later, split, follows⟩, -⟩ := connected
  have queued := follows.queued
  rw [queue] at queued
  cases queued with
  | cons here others =>
      rename_i call before
      have sendable : call.2.Sendable := allowed call (by simp [split])
      obtain ⟨tail, received, invoked, same⟩ :=
        messageProcess_waits client_speaks sendable here
      refine ⟨?_, of_decide_eq_true tail, received, ?_, invoked⟩
      · obtain ⟨heap, rfl⟩ := here
        rfl
      · exact C2SCall.received_of_sameAs sendable same

theorem turn_sound (thread : ProcessThread) {packet : PacketStruct} {received : C2SCall}
    (tail : ProcessThread.checkTail packet = packetCheckTailKey)
    (invoked : serverTable.messageProcess (fun offset => packet.pBuffer offset) packet.nDataSize =
      .invoked received) (env : Server.Env) :
    thread.turn (packet, env) =
      ({ server := thread.server.packet packet.pConnector (some received) env
         pConnector := some packet.pConnector },
        [.messageProcess (thread.server.attach packet.pConnector).2]) := by
  have dispatched : ProcessThread.dispatched packet = some received := by
    rw [ProcessThread.dispatched, invoked]
  simp [ProcessThread.turn, tail, dispatched]

theorem attached_kept (game : Game) (conn uid : Nat)
    (counted : uid ≤ game.server.uniqueUserSessionUid) :
    game.attached conn uid = game.connectors uid := by
  unfold attached
  split
  · exact Function.update_of_ne (by omega) _ _
  · rfl

theorem attached_cases {conn uid other : Nat} (attached : game.attached conn uid = some other) :
    game.connectors uid = some other ∨ other = conn := by
  unfold Game.attached at attached
  split at attached
  · by_cases new : uid = game.server.uniqueUserSessionUid + 1
    · subst new
      rw [Function.update_self] at attached
      exact Or.inr (Option.some.inj attached).symm
    · rw [Function.update_of_ne new] at attached
      exact Or.inl attached
  · exact Or.inl attached

theorem attach_connectors (linked : Linked game log) (conn slot : Nat)
    (connected : ((game.server.attach conn).1.sessions slot).pConnector ≠ none) :
    game.attached conn ((game.server.attach conn).1.sessions slot).uid =
      ((game.server.attach conn).1.sessions slot).pConnector := by
  obtain ⟨-, ⟨param, same⟩ | ⟨param, -, sessions⟩⟩ := Server.attach_sessions game.server conn
  · rw [same] at connected ⊢
    rw [attached_kept game conn _ (linked.numbered.counted slot)]
    exact linked.sessions slot connected
  · rw [sessions] at connected ⊢
    by_cases new : slot = (game.server.attach conn).2
    · rw [new, Function.update_self, attached, if_pos param]
      exact Function.update_self _ _ _
    · rw [Function.update_of_ne new] at connected ⊢
      rw [attached_kept game conn _ (linked.numbered.counted slot)]
      exact linked.sessions slot connected

theorem turnAct_calls {slot conn other : Nat} {event : WireEvent S2CCall}
    (member : event ∈ [ProcessThread.Effect.messageProcess slot].filterMap
      (game.turnAct conn other)) : event = .setParam slot := by
  simp only [turnAct, List.mem_filterMap, List.mem_singleton, exists_eq_left,
    Option.ite_none_right_eq_some, Option.some.injEq] at member
  exact member.2.symm

theorem turnAct_other {slot conn other : Nat} (apart : other ≠ conn) :
    [ProcessThread.Effect.messageProcess slot].filterMap (game.turnAct conn other) = [] := by
  have different : ¬conn = other := Ne.symm apart
  simp [turnAct, different]

theorem turn_serves (linked : Linked game log) {conn : Nat} {wire : Wire}
    (found : game.wires conn = some wire) {received : C2SCall} (fitting : received.Received)
    (next : wire.server.nextCall serverSide = some received) {env : Server.Env}
    (token : FitsSigned 8 (game.server.nextToken env)) (slot : Nat) :
    Serves game [.packet conn (some received) env]
      { server := game.server.packet conn (some received) env, pConnector := some conn }
      (game.attached conn)
      fun other => (if other = conn then [.process] else []) ++
        [ProcessThread.Effect.messageProcess slot].filterMap (game.turnAct conn other) := by
  obtain ⟨handled, -⟩ := Server.packet_extends game.server conn (some received) env
  have attaches := Server.attach_numbered linked.numbered conn
  have acts (other : Nat) (event : WireEvent S2CCall)
      (member : event ∈ (if other = conn then [.process] else []) ++
        [ProcessThread.Effect.messageProcess slot].filterMap (game.turnAct conn other)) :
      event = .process ∨ event = .setParam slot := by
    rcases List.mem_append.mp member with first | second
    · split at first
      · exact Or.inl (List.mem_singleton.mp first)
      · cases first
    · exact Or.inr (turnAct_calls second)
  have fits : Server.Fits (game.server.packet conn (some received) env) := by
    refine Server.packet_fits linked.fits conn ?_ token
    intro call same
    exact Option.some.inj same ▸ fitting
  refine ⟨rfl, fits, handled.numbered attaches, ?_, attached_kept game conn, ?_, ?_, ?_, ?_, ?_⟩
  · obtain ⟨more, delivered, -⟩ := handled.delivered
    rw [(Server.attach_sessions game.server conn).1] at delivered
    exact ⟨more, delivered⟩
  · intro other event member
    rcases acts other event member with rfl | rfl
    · exact ⟨rfl, trivial⟩
    · exact ⟨rfl, trivial⟩
  · intro other there present
    by_cases same : other = conn
    · subst same
      obtain rfl := Option.some.inj (found.symm.trans present)
      have processed := Endpoint.step_calls serverSide other wire.client.channel.sent wire.server
      rw [next] at processed
      have quiet : ∀ event ∈ [ProcessThread.Effect.messageProcess slot].filterMap
          (game.turnAct other other), event ≠ .process := by
        intro event member
        rw [turnAct_calls member]
        nofun
      rw [if_pos rfl, List.singleton_append, List.foldl_cons, Endpoint.calls,
        Endpoint.foldl_handled _ _ _ quiet]
      refine processed.trans ?_
      simp [callFrom]
    · rw [if_neg same, turnAct_other same]
      simp [callFrom, Ne.symm same]
  · intro other absent
    have apart : conn ≠ other := by
      rintro rfl
      rw [found] at absent
      cases absent
    simp [callFrom, apart]
  · intro known connected
    dsimp only at connected ⊢
    rw [handled.connector] at connected ⊢
    rw [handled.uid]
    exact attach_connectors linked conn known connected
  · intro uid other attached
    rcases attached_cases attached with old | rfl
    · exact linked.opened uid other old
    · rw [found]
      exact Option.some_ne_none wire

/-- A turn of the process thread: there is no packet, or it is given to the server. -/
theorem process_cases (linked : Linked game log) (conn : Nat) (env : Server.Env) (sends : Sends) :
    game.process conn env sends = game ∨
      ∃ wire received slot, game.wires conn = some wire ∧ received.Received ∧
        wire.server.nextCall serverSide = some received ∧
        game.process conn env sends = game.exchange
          { server := game.server.packet conn (some received) env, pConnector := some conn }
          (game.attached conn)
          (fun other => (if other = conn then [.process] else []) ++
            [ProcessThread.Effect.messageProcess slot].filterMap (game.turnAct conn other))
          sends := by
  cases found : game.wires conn with
  | none =>
      left
      simp only [process, found, Option.map_none]
  | some wire =>
      cases queue : wire.server.recvQueue with
      | nil =>
          left
          simp only [process, found, Option.map_some, queue]
      | cons packet rest =>
          obtain ⟨rfl, tail, received, fitting, invoked⟩ :=
            arrives (linked.connected conn wire found) queue
          have turned := turn_sound game.thread tail invoked env
          have next : wire.server.nextCall serverSide = some received := by
            rw [Endpoint.nextCall, queue]
            exact congrArg Dispatch.call invoked
          refine Or.inr ⟨wire, received, (game.server.attach packet.pConnector).2, rfl, fitting,
            next, ?_⟩
          simp only [process, found, Option.map_some, queue, turned]
          rfl

theorem process_linked (linked : Linked game log) (conn : Nat) {env : Server.Env}
    (token : FitsSigned 8 (game.server.nextToken env)) (sends : Sends) :
    Leads game (.process conn env sends) log := by
  rcases process_cases linked conn env sends with
    same | ⟨wire, received, slot, found, fitting, next, processed⟩
  · exact linked.stays same
  · refine ⟨[.packet conn (some received) env], ?_, ?_⟩
    · rw [step, processed]
      exact linked.exchange (turn_serves linked found fitting next token slot) sends
    · intro client plays
      refine ⟨⟨?_, trivial⟩, trivial⟩
      cases received with
      | auth packet => exact plays wire packet found next
      | _ => trivial

/-! Steps of the thread that updates the sessions and fires the commands. -/

theorem Linked.update (linked : Linked game log) {message : Server.Event} {next : Server}
    (step : game.server.step message = next) (unasked : ∀ conn, callFrom conn message = none)
    (extends' : Server.Extends game.server next) (fits : next.Fits)
    {acts : Nat → List (WireEvent S2CCall)}
    (quiet : ∀ conn, ∀ event ∈ acts conn, event = .tryRelease ∨ event = .release) (sends : Sends) :
    Linked (game.exchange { game.thread with server := next } game.connectors acts sends)
      (log ++ [message]) := by
  refine linked.exchange ⟨step.symm, fits, extends'.numbered linked.numbered, ?_, fun _ _ => rfl,
    ?_, ?_, ?_, ?_, linked.opened⟩ sends
  · obtain ⟨more, delivered, -⟩ := extends'.delivered
    exact ⟨more, delivered⟩
  · intro conn event member
    rcases quiet conn event member with rfl | rfl
    · exact ⟨rfl, trivial⟩
    · exact ⟨rfl, trivial⟩
  · intro conn wire found
    have others : ∀ event ∈ acts conn, event ≠ .process := by
      intro event member
      rcases quiet conn event member with rfl | rfl
      · nofun
      · nofun
    rw [Endpoint.calls, Endpoint.foldl_handled _ _ _ others, List.filterMap_cons, unasked]
    exact (List.append_nil _).symm
  · intro conn _
    rw [List.filterMap_cons, unasked]
    rfl
  · intro slot connected
    have connector := extends'.connector slot
    have uid := extends'.uid slot
    dsimp only at connected ⊢
    rw [connector] at connected
    rw [uid, connector]
    exact linked.sessions slot connected

theorem updateActs_quiet {server : Server} {clock : Server.Clock} {conn : Nat}
    {event : WireEvent S2CCall} (member : event ∈ updateActs server clock conn) :
    event = .tryRelease ∨ event = .release := by
  rcases List.mem_append.mp member with first | second
  · split at first
    · exact Or.inl (List.mem_singleton.mp first)
    · cases first
  · obtain ⟨slot, -, rfl⟩ := List.mem_map.mp second
    exact Or.inr rfl

theorem doUpdate_linked (linked : Linked game log) (clock : Server.Clock) (sends : Sends) :
    Leads game (.doUpdate clock sends) log := by
  by_cases idle : game.server.firingCmds = []
  · refine ⟨[.doUpdate clock], ?_, fun _ plays => ⟨⟨plays, trivial⟩, trivial⟩⟩
    simp only [step, doUpdate, idle, if_true]
    refine linked.update ?_ (fun _ => rfl) (Server.doUpdate_extends game.server clock)
      (Server.doUpdate_fits linked.fits clock) (fun _ _ => updateActs_quiet) sends
    rw [Server.step, if_pos idle]
  · refine linked.stays ?_
    simp only [step, doUpdate, idle, if_false]

theorem fire_linked (linked : Linked game log) (sends : Sends) :
    Linked (game.fire sends) (log ++ [.fire]) := by
  have fired : game.server.step .fire = game.server.fire := rfl
  exact linked.update fired (fun _ => rfl) (Server.fire_extends game.server)
    (Server.fire_fits linked.fits) (fun _ _ member => absurd member List.not_mem_nil) sends

theorem step_linked (linked : Linked game log) {event : Event} (typed : Typed game event) :
    Leads game event log := by
  cases event with
  | connect conn opening clientHeap serverHeap =>
      exact connect_linked linked conn opening clientHeap serverHeap
  | client conn event => exact client_linked linked conn typed
  | network conn event => exact network_linked linked conn event
  | process conn env sends => exact process_linked linked conn typed sends
  | doUpdate clock sends => exact doUpdate_linked linked clock sends
  | tick =>
      have delivered : game.server.tick.delivered = game.server.delivered := by
        rw [Server.tick]
        split
        · rfl
        · rfl
      exact ⟨[.tick], linked.unsent rfl (fun _ => rfl) (Server.tick_extends game.server)
        (Server.tick_fits linked.fits) delivered, fun _ _ => ⟨⟨trivial, trivial⟩, trivial⟩⟩
  | fire sends =>
      exact ⟨[.fire], fire_linked linked sends, fun _ plays => ⟨⟨trivial, plays⟩, trivial⟩⟩

end Steps

theorem run_linked {game : Game} {log : List Server.Event} (linked : Linked game log)
    {events : List Event} (along : Run.Along step Typed game events) :
    ∃ messages, Linked (game.run events) (log ++ messages) := by
  induction events generalizing game log with
  | nil => exact ⟨[], by rw [List.append_nil]; exact linked⟩
  | cons event rest ih =>
      obtain ⟨messages, next, -⟩ := step_linked linked along.1
      obtain ⟨later, last⟩ := ih next along.2
      exact ⟨messages ++ later, by rw [← List.append_assoc]; exact last⟩

/-- What a client has processed, against what has been delivered on its connection. -/
theorem Linked.answered {game : Game} {log : List Server.Event} (linked : Linked game log)
    {conn : Nat} {wire : Wire} (found : game.wires conn = some wire) :
    ∃ answers, answers <+: deliveredOn game.connectors conn game.server.delivered ∧
      answers.length = wire.client.handled.length ∧
      game.clients conn = CharacterMgr.run answers := by
  obtain ⟨-, ⟨-, -, -, done, waiting, later, split, follows⟩⟩ := linked.connected conn wire found
  refine ⟨done.map Prod.snd, ?_, ?_, ?_⟩
  · refine List.IsPrefix.trans ?_ (linked.answers conn wire found).first
    rw [split, List.append_assoc, List.map_append]
    exact List.prefix_append _ _
  · rw [List.length_map]
    exact follows.handled.length_eq
  · rw [linked.view found]
    exact CharacterMgr.foldl_handle_sameAs (Handled.calls follows.handled) _

theorem Linked.requested {game : Game} {log : List Server.Event} (linked : Linked game log)
    {conn : Nat} {wire : Wire} (found : game.wires conn = some wire) :
    ∃ requests, requests <+: wire.client.sentCalls.map Prod.snd ∧
      List.Forall₂ C2SCall.SameAs requests (log.filterMap (callFrom conn)) := by
  obtain ⟨⟨-, -, -, done, waiting, later, split, follows⟩, -⟩ := linked.connected conn wire found
  refine ⟨done.map Prod.snd, ?_, ?_⟩
  · rw [split, List.append_assoc, List.map_append]
    exact List.prefix_append _ _
  · rw [linked.requests, requestsAt_some found]
    exact Handled.calls follows.handled

/-- Every run over the network is a run of the server alone on messages. From each connection it
is given the first requests that the client made, and the client has processed the first packets
delivered to the sessions of the connection. -/
theorem refines_server (events : List Event) (typed : Run.Along step Typed {} events) :
    ∃ messages, (run {} events).server = Server.run {} messages ∧
      (∀ slot, ((run {} events).server.sessions slot).pConnector ≠ none →
        (run {} events).connectors ((run {} events).server.sessions slot).uid =
          ((run {} events).server.sessions slot).pConnector) ∧
      ∀ conn wire, (run {} events).wires conn = some wire →
        (∃ requests, requests <+: wire.client.sentCalls.map Prod.snd ∧
          List.Forall₂ C2SCall.SameAs requests (messages.filterMap (callFrom conn))) ∧
        ∃ answers, answers <+:
            deliveredOn (run {} events).connectors conn (run {} events).server.delivered ∧
          answers.length = wire.client.handled.length ∧
          (run {} events).clients conn = CharacterMgr.run answers := by
  obtain ⟨messages, linked⟩ := run_linked start_linked typed
  exact ⟨messages, linked.server, linked.sessions,
    fun conn wire found => ⟨linked.requested found, linked.answered found⟩⟩

/-! Two clients that authenticate and enter, and hear of themselves and of each other. -/

def accepted : Sends := fun _ _ => (2, true)

def asks (conn : Nat) (call : C2SCall) : List Event :=
  [.client conn (.sendPacket 1 call true), .client conn (.sendDone 100 true),
    .network conn (.recvDone 100 (fun _ => 0) true), .process conn {} accepted]

def hears (conn : Nat) : List Event :=
  [.network conn (.sendDone 100 true), .client conn (.recvDone 100 (fun _ => 0) true),
    .client conn .process]

def joins (conn : Nat) (token : Int) : List Event :=
  .connect conn .acceptThread (fun _ => 0) (fun _ => 0) :: asks conn (.auth { id := 7 }) ++
    hears conn ++ asks conn (.enter { token }) ++
    [.tick, .fire accepted, .tick, .fire accepted, .fire accepted, .tick, .fire accepted,
      .fire accepted, .fire accepted] ++ hears conn

def entering : List Event := joins 0 1 ++ joins 1 2 ++ hears 1 ++ hears 0

/-- What `entering` keeps to, and can be evaluated: nobody leaves, and a client asks for nothing but
to authenticate and to enter. -/
def keepsTo (game : Game) : Event → Bool
  | .client _ (.sendPacket _ call _) =>
      match call with
      | .auth packet => FitsSigned 4 packet.id
      | .enter packet => FitsSigned 8 packet.token
      | _ => false
  | .process conn env _ =>
      decide (FitsSigned 8 (game.server.nextToken env)) &&
        match (game.wires conn).bind fun wire => wire.server.nextCall serverSide with
        | some (.auth _) =>
            decide ((game.server.sender conn).nub.token = 0) &&
              (game.server.userMap[game.server.nextToken env]?).isNone
        | _ => true
  | .doUpdate _ _ => false
  | .fire _ =>
      match game.server.fired with
      | some (.leaveCharacter _ _) => false
      | _ => true
  | _ => true

theorem keepsTo_sound {game : Game} {event : Event} (keeps : game.keepsTo event = true)
    (client : Int) : Typed game event ∧ Plays client game event := by
  cases event with
  | connect conn opening clientHeap serverHeap => exact ⟨trivial, trivial⟩
  | client conn event =>
      refine ⟨?_, trivial⟩
      cases event with
      | sendPacket packetTime call accepts =>
          cases call with
          | auth packet =>
              have fits : FitsSigned 4 packet.id := of_decide_eq_true keeps
              exact fits
          | enter packet =>
              have fits : FitsSigned 8 packet.token := of_decide_eq_true keeps
              exact fits
          | _ => cases keeps
      | _ => trivial
  | network conn event => exact ⟨trivial, trivial⟩
  | process conn env sends =>
      rw [keepsTo, Bool.and_eq_true, decide_eq_true_eq] at keeps
      obtain ⟨fits, call⟩ := keeps
      refine ⟨fits, fun wire packet found auth => ?_⟩
      rw [found, Option.bind_some, auth] at call
      rw [Bool.and_eq_true] at call
      obtain ⟨silent, unused⟩ := call
      exact ⟨of_decide_eq_true silent, Option.isNone_iff_eq_none.mp unused⟩
  | doUpdate clock sends => cases keeps
  | tick => exact ⟨trivial, trivial⟩
  | fire sends =>
      refine ⟨trivial, fun zoneId leaves => ?_⟩
      rw [keepsTo, leaves] at keeps
      cases keeps

theorem entering_along (client : Int) :
    Run.Along step (fun game event => Typed game event ∧ Plays client game event) {} entering :=
  Run.Along.of_check (fun _ _ keeps => keepsTo_sound keeps client)
    (show Run.checkAlong step keepsTo {} entering = true by decide +kernel)

theorem refines_server_of_entering :
    ∃ messages, (run {} entering).server = Server.run {} messages ∧
      (∀ slot, ((run {} entering).server.sessions slot).pConnector ≠ none →
        (run {} entering).connectors ((run {} entering).server.sessions slot).uid =
          ((run {} entering).server.sessions slot).pConnector) ∧
      ∀ conn wire, (run {} entering).wires conn = some wire →
        (∃ requests, requests <+: wire.client.sentCalls.map Prod.snd ∧
          List.Forall₂ C2SCall.SameAs requests (messages.filterMap (callFrom conn))) ∧
        ∃ answers, answers <+:
            deliveredOn (run {} entering).connectors conn (run {} entering).server.delivered ∧
          answers.length = wire.client.handled.length ∧
          (run {} entering).clients conn = CharacterMgr.run answers :=
  refines_server entering ((entering_along 1).mono fun _ _ allowed => allowed.1)

/-! While nobody is released, a connection has one session. -/

def Homed (game : Game) : Prop :=
  ∀ uid conn, game.connectors uid = some conn →
    ∃ slot, (game.server.links conn).param = some slot ∧ (game.server.sessions slot).uid = uid

theorem Homed.keep {game next : Game} (homed : Homed game)
    (connectors : next.connectors = game.connectors)
    (param : ∀ conn, (next.server.links conn).param = (game.server.links conn).param)
    (uid : ∀ slot, (next.server.sessions slot).uid = (game.server.sessions slot).uid) :
    Homed next := by
  intro number conn attached
  rw [connectors] at attached
  obtain ⟨slot, linked, same⟩ := homed number conn attached
  exact ⟨slot, (param conn).trans linked, (uid slot).trans same⟩

theorem process_homed {game : Game} (owned : game.server.Owned) (homed : Homed game) (conn : Nat)
    (received : C2SCall) (env : Server.Env) (acts : Nat → List (WireEvent S2CCall))
    (sends : Sends) :
    Homed (game.exchange
      { server := game.server.packet conn (some received) env, pConnector := some conn }
      (game.attached conn) acts sends) := by
  obtain ⟨handled, links⟩ := Server.packet_extends game.server conn (some received) env
  intro number other attached
  have goal : ∃ slot, ((game.server.attach conn).1.links other).param = some slot ∧
      ((game.server.attach conn).1.sessions slot).uid = number := by
    change game.attached conn number = some other at attached
    cases param : (game.server.links conn).param with
    | some slot =>
        rw [Game.attached, if_neg (by simp [param])] at attached
        rw [Server.attach_known param]
        exact homed number other attached
    | none =>
        have attaches := Server.attach_attaches param owned.kept
        rw [Game.attached, if_pos param] at attached
        by_cases new : number = game.server.uniqueUserSessionUid + 1
        · subst new
          rw [Function.update_self] at attached
          obtain rfl := Option.some.inj attached
          refine ⟨(game.server.attach conn).2, ?_, ?_⟩
          · rw [attaches.links, Function.update_self]
          · rw [attaches.session_new]
        · rw [Function.update_of_ne new] at attached
          obtain ⟨slot, linked, uid⟩ := homed number other attached
          have apart : other ≠ conn := by
            rintro rfl
            rw [param] at linked
            cases linked
          refine ⟨slot, ?_, ?_⟩
          · rw [attaches.links, Function.update_of_ne apart]
            exact linked
          · rw [attaches.session_old (owned.linked other slot linked).1]
            exact uid
  obtain ⟨slot, linked, uid⟩ := goal
  refine ⟨slot, ?_, ?_⟩
  · rw [← links] at linked
    exact linked
  · rw [← handled.uid] at uid
    exact uid

theorem step_homed {game : Game} {log : List Server.Event} (linked : Linked game log)
    (owned : game.server.Owned) (homed : Homed game) {client : Int} {event : Event}
    (plays : Plays client game event) : Homed (game.step event) := by
  cases event with
  | connect conn opening clientHeap serverHeap =>
      simp only [step, connect]
      split
      · exact homed
      · have owners : Server.SameOwners game.server (game.server.step (.connect conn)) :=
          Server.connect_sameOwners conn
        exact homed.keep rfl owners.param (Server.connect_extends game.server conn).uid
  | client conn event =>
      simp only [step, Game.client]
      split
      · exact homed
      · exact homed.keep rfl (fun _ => rfl) fun _ => rfl
  | network conn event =>
      simp only [step, network]
      split
      · exact homed
      · split
        · exact homed.keep rfl (fun _ => rfl) fun _ => rfl
        · exact homed.keep rfl (Server.closeLink_sameOwners game.server conn).param fun _ => rfl
  | process conn env sends =>
      rw [step]
      rcases process_cases linked conn env sends with
        same | ⟨wire, received, slot, -, -, -, processed⟩
      · rw [same]
        exact homed
      · rw [processed]
        exact process_homed owned homed conn received env _ sends
  | doUpdate clock sends =>
      by_cases idle : game.server.firingCmds = []
      · rw [step, doUpdate, if_pos idle]
        have update := Server.doUpdate_idle (plays idle)
        have owners := Server.updateSessions_sameOwners game.server clock game.server.mgr.usedList
        rw [← update] at owners
        exact homed.keep rfl owners.param (Server.doUpdate_extends game.server clock).uid
      · rw [step, doUpdate, if_neg idle]
        exact homed
  | tick =>
      have owners : Server.SameOwners game.server game.server.tick :=
        Server.tick_sameOwners game.server
      exact homed.keep rfl owners.param (Server.tick_extends game.server).uid
  | fire sends =>
      have owners : Server.SameOwners game.server game.server.fire :=
        Server.fire_sameOwners game.server
      have extends' : Server.Extends game.server game.server.fire :=
        Server.fire_extends game.server
      exact homed.keep rfl owners.param extends'.uid

/-! What holds while the client plays. -/

structure Watched (client : Int) (game : Game) : Prop where
  linked : ∃ log, Linked game log
  watched : game.server.Watched client
  homed : Homed game

theorem start_watched (client : Int) : Watched client {} :=
  ⟨⟨[], start_linked⟩, Server.start_watched client, fun _ _ attached => absurd attached nofun⟩

theorem Watched.served {client : Int} {game : Game} (watched : Watched client game) {event : Event}
    (typed : Typed game event) (plays : Plays client game event) :
    ∃ log messages, Linked (game.step event) log ∧
      (game.step event).server = messages.foldl Server.step game.server ∧
      Run.Along Server.step (Calm client) game.server messages := by
  obtain ⟨log, linked⟩ := watched.linked
  obtain ⟨messages, next, calm⟩ := step_linked linked typed
  refine ⟨log ++ messages, messages, next, ?_, calm client plays⟩
  have reached := next.server
  rw [Server.run, List.foldl_append] at reached
  rw [reached, linked.server, Server.run]

theorem step_watched (client : Int) (game : Game) (event : Event) (watched : Watched client game)
    (allowed : Typed game event ∧ Plays client game event) :
    Watched client (game.step event) := by
  obtain ⟨log, messages, next, reached, calm⟩ := watched.served allowed.1 allowed.2
  have homed : Homed (game.step event) := by
    obtain ⟨before, linked⟩ := watched.linked
    exact step_homed linked watched.watched.enrolled.owned watched.homed allowed.2
  refine ⟨⟨log, next⟩, ?_, homed⟩
  rw [reached]
  exact Run.Along.invariant (Server.step_watched client) watched.watched calm

theorem step_member (client : Int) (game : Game) (event : Event)
    (inside : Watched client game ∧ game.server.world.member client)
    (allowed : Typed game event ∧ Plays client game event) :
    Watched client (game.step event) ∧ (game.step event).server.world.member client := by
  obtain ⟨watched, member⟩ := inside
  refine ⟨step_watched client game event watched allowed, ?_⟩
  obtain ⟨log, messages, -, reached, calm⟩ := watched.served allowed.1 allowed.2
  rw [reached]
  exact (Run.Along.invariant (Server.step_member client) ⟨watched.watched, member⟩ calm).2

def Entered (client : Int) (events : List Event) : Prop :=
  ∃ before sends after zoneId posX posY, events = before ++ .fire sends :: after ∧
    (run {} before).server.fired = some (.enterCharacter client zoneId posX posY)

theorem member_of_entered {client : Int} (nonzero : client ≠ 0) {events : List Event}
    (along : Run.Along step
      (fun game event => Typed game event ∧ Plays client game event) {} events)
    (entered : Entered client events) : (run {} events).server.world.member client := by
  obtain ⟨before, sends, after, zoneId, posX, posY, rfl, fired⟩ := entered
  have here : Watched client (run {} before) :=
    Run.Along.invariant (step_watched client) (start_watched client) along.initial
  obtain ⟨allowed, later⟩ := along.final
  have watched := step_watched client _ _ here allowed
  have inside : ((run {} before).fire sends).server.world.member client :=
    here.watched.fire_entered nonzero fired
  have last := Run.Along.invariant (step_member client) ⟨watched, inside⟩ later
  rw [run, List.foldl_append]
  exact last.2

/-- The packets that are delivered on a connection are those of its session. -/
theorem Homed.deliveredOn {game : Game} (homed : Homed game) {uid conn : Nat}
    (attached : game.connectors uid = some conn) :
    deliveredOn game.connectors conn game.server.delivered = game.server.packetsTo uid := by
  obtain ⟨slot, linked, mine⟩ := homed uid conn attached
  rw [Game.deliveredOn, Server.packetsTo]
  congr 1
  apply List.filter_congr
  intro delivery _
  rw [decide_eq_decide]
  constructor
  · intro other
    obtain ⟨found, same, theirs⟩ := homed delivery.recipient conn other
    rw [linked] at same
    obtain rfl := Option.some.inj same
    rw [← theirs, mine]
  · rintro rfl
    exact attached

/-- Whenever nothing waits at the server and a client has processed all that was delivered to its
session, the client program holds exactly the other characters of the zone. -/
theorem client_holds_zone_over_network (client : Int) (slot conn : Nat) (wire : Wire)
    (events : List Event)
    (along : Run.Along step
      (fun game event => Typed game event ∧ Plays client game event) {} events)
    (mapped : (run {} events).server.userMap[client]? = some slot)
    (connector : ((run {} events).server.sessions slot).pConnector = some conn)
    (entered : Entered client events)
    (idle : (run {} events).server.cmds = [] ∧ (run {} events).server.firingCmds = [])
    (found : (run {} events).wires conn = some wire)
    (received : wire.client.handled.length =
      ((run {} events).server.packetsTo ((run {} events).server.sessions slot).uid).length) :
    ∀ token : Int, token ∈ ((run {} events).clients conn).characterMap ↔
      token ∈ (run {} events).server.characterMap 1 ∧ token ≠ client := by
  have watched : Watched client (run {} events) :=
    Run.Along.invariant (step_watched client) (start_watched client) along
  have positive := (watched.watched.enrolled.owned.mapped client slot mapped).2.2
  have inside := member_of_entered (by omega) along entered
  obtain ⟨log, linked⟩ := watched.linked
  have attached : (run {} events).connectors ((run {} events).server.sessions slot).uid =
      some conn := by
    rw [linked.sessions slot (by rw [connector]; simp), connector]
  obtain ⟨answers, first, count, view⟩ := linked.answered found
  rw [watched.homed.deliveredOn attached] at first
  rw [view, first.eq_of_length (count.trans received)]
  exact watched.watched.holds_zone mapped inside idle

theorem client_holds_zone_over_network_of_entering :
    ∃ wire : Wire, (run {} entering).wires 0 = some wire ∧
      wire.client.handled.length = 3 ∧ (2 : Int) ∈ (run {} entering).server.characterMap 1 ∧
      ∀ token : Int, token ∈ ((run {} entering).clients 0).characterMap ↔
        token ∈ (run {} entering).server.characterMap 1 ∧ token ≠ 1 := by
  obtain ⟨fired, mapped, connector, idle, lengths, count, other⟩ :
      (run {} (entering.take 13)).server.fired = some (.enterCharacter 1 1 0 0) ∧
      (run {} entering).server.userMap[(1 : Int)]? = some 99 ∧
      ((run {} entering).server.sessions 99).pConnector = some 0 ∧
      ((run {} entering).server.cmds = [] ∧ (run {} entering).server.firingCmds = []) ∧
      ((run {} entering).wires 0).map (fun wire => wire.client.handled.length) = some 3 ∧
      ((run {} entering).server.packetsTo
        ((run {} entering).server.sessions 99).uid).length = 3 ∧
      (2 : Int) ∈ (run {} entering).server.characterMap 1 := by
    decide +kernel
  obtain ⟨wire, found, handled⟩ := Option.map_eq_some_iff.mp lengths
  have entered : Entered 1 entering :=
    ⟨entering.take 13, accepted, entering.drop 14, 1, 0, 0, rfl, fired⟩
  exact ⟨wire, found, handled, other,
    client_holds_zone_over_network 1 99 0 wire entering (entering_along 1) mapped connector
      entered idle found (handled.trans count.symm)⟩

end Game

end ProjectPl
