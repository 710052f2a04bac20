import ProjectPl.ConsoleCore

/-!
What a whole session at the console comes to: which lines end the client without `/exit`, and on
which session the requests are made.
-/

namespace ProjectPl

namespace Console

open CppString

theorem append_eq_append_cons {α : Type*} {one two front rest : List α} {entry : α}
    (split : one ++ two = front ++ entry :: rest) :
    (∃ middle, one = front ++ entry :: middle ∧ rest = middle ++ two) ∨
      ∃ middle, front = one ++ middle ∧ two = middle ++ entry :: rest := by
  rcases List.append_eq_append_iff.mp split with ⟨middle, same, tail⟩ | ⟨middle, same, tail⟩
  · exact Or.inr ⟨middle, same, tail⟩
  · cases middle with
    | nil => exact Or.inr ⟨[], by simpa using same.symm, tail.symm⟩
    | cons first middle =>
        rw [List.cons_append, List.cons.injEq] at tail
        exact Or.inl ⟨middle, tail.1 ▸ same, tail.2⟩

/-! Tokens. -/

section Tokens

variable {str delimiter rest : List UInt8}

theorem run_headState (short : str.length < npos) (tokens : List (List UInt8))
    (suffix : rest <:+ str) :
    ∃ found,
      Loop.run (Tokenizing.pass str delimiter) (rest.length + 1)
        (Tokenizing.headState str delimiter rest tokens) = some (some (tokens ++ found)) ∧
      Tokenizing.Runs delimiter rest found := by
  induction length : rest.length using Nat.strong_induction_on generalizing rest tokens with
  | _ size ih =>
      by_cases empty : past delimiter rest = []
      · obtain ⟨found, ends, runs⟩ := Tokenizing.ends_headState short delimiter tokens suffix
        have last : Tokenizing.pass str delimiter
            (Tokenizing.headState str delimiter rest tokens) = .inr (some tokens) :=
          Tokenizing.pass_last empty
        have same := ends.unique (.last last)
        exact ⟨found, (Loop.run_last last _).trans (congrArg some same.symm), runs⟩
      · have goes : Tokenizing.pass str delimiter
            (Tokenizing.headState str delimiter rest tokens) = .inl _ :=
          Tokenizing.pass_next short suffix empty
        have shorter := Tokenizing.seek_past_length_lt empty
        obtain ⟨found, ended, -⟩ := ih _ (length ▸ shorter)
          (tokens ++ [before delimiter (past delimiter rest)])
          ((seek_suffix ..).trans ((past_suffix ..).trans suffix)) rfl
        obtain ⟨others, ends, runs⟩ := Tokenizing.ends_headState short delimiter tokens suffix
        obtain ⟨more, enough⟩ := Nat.exists_eq_add_of_lt shorter
        have ran := (Loop.run_next goes _).trans (Loop.run_more ended more)
        rw [show (seek delimiter (past delimiter rest)).length + 1 + more = size by omega] at ran
        have same := ends.unique ⟨_, ran⟩
        exact ⟨others, ran.trans (congrArg some same.symm), runs⟩

theorem tokenizeA_runs_of_short {cmdStr : List UInt8} (short : cmdStr.length < npos) :
    ∃ found, tokenizeA cmdStr = some found ∧ Tokenizing.Runs [32] cmdStr found ∧
      TokenizeA ⟨cmdStr, short⟩ [] [32] (some found) := by
  have suffix : cmdStr <:+ cmdStr := List.suffix_refl _
  obtain ⟨found, ran, runs⟩ := run_headState short [] suffix
  rw [← Tokenizing.start_eq short] at ran
  refine ⟨found, ?_, runs, _, ran⟩
  rw [tokenizeA, ran]
  rfl

theorem tokenizeA_eq_nil_iff {cmdStr : List UInt8} (short : cmdStr.length < npos) :
    tokenizeA cmdStr = some [] ↔ ∀ char ∈ cmdStr, char = 32 := by
  obtain ⟨found, tokenized, runs, -⟩ := tokenizeA_runs_of_short short
  have flat := runs.flatten
  rw [tokenized, Option.some_inj]
  constructor
  · rintro rfl char member
    have none := List.filter_eq_nil_iff.mp flat.symm char member
    simpa using none
  · intro spaces
    have none : cmdStr.filter (· ∉ [32]) = [] :=
      List.filter_eq_nil_iff.mpr fun char member => by simp [spaces char member]
    rw [none, List.flatten_eq_nil_iff] at flat
    cases found with
    | nil => rfl
    | cons token tokens => exact absurd (flat token (by simp)) (runs.free token (by simp)).1

end Tokens

/-! Lines. -/

/-- The first token of the line is taken for this command. -/
def Line.Names (line : Line) (wanted : Command) : Prop :=
  ∃ token arguments, tokenizeA line.cmdStr = some (token :: arguments) ∧ command token = wanted

def Line.TooLong (line : Line) : Prop := cmdSize ≤ line.text.length

def Line.Blank (line : Line) : Prop := line.cmdStr ≠ [] ∧ ∀ char ∈ line.cmdStr, char = 32

/-- `/connect`, with a server that answers. -/
def Line.Connects (line : Line) : Prop := line.Names .connect ∧ line.connector.isSome

def Line.UsesSession (line : Line) : Prop := line.Names .enter ∨ line.Names .move

theorem Line.Names.unique {line : Line} {one two : Command} (first : line.Names one)
    (second : line.Names two) : one = two := by
  obtain ⟨token, arguments, tokenized, rfl⟩ := first
  obtain ⟨other, others, same, rfl⟩ := second
  rw [tokenized, Option.some_inj, List.cons.injEq] at same
  rw [same.1]

theorem Line.cmdStr_short {line : Line} (fits : ¬line.TooLong) : line.cmdStr.length < npos := by
  have cut : line.cmdStr.length ≤ line.text.length := (List.takeWhile_prefix _).length_le
  rw [TooLong, cmdSize, Nat.not_le] at fits
  rw [npos]
  omega

theorem turn_tooLong {line : Line} (console : Console) (long : line.TooLong) :
    console.turn line = console.crash := if_pos long

theorem turn_blank {line : Line} (console : Console) (fits : ¬line.TooLong)
    (blank : line.Blank) : console.turn line = console.crash := by
  rw [turn, if_neg (show ¬cmdSize ≤ _ from fits), if_neg blank.1,
    (tokenizeA_eq_nil_iff (Line.cmdStr_short fits)).mpr blank.2]

theorem turn_empty {line : Line} (console : Console) (fits : ¬line.TooLong)
    (empty : line.cmdStr = []) :
    console.turn line = (console, []) ∧ ∀ wanted, ¬line.Names wanted := by
  refine ⟨by rw [turn, if_neg (show ¬cmdSize ≤ _ from fits), if_pos empty], ?_⟩
  rintro wanted ⟨token, arguments, tokenized, -⟩
  rw [empty] at tokenized
  cases tokenized

theorem turn_command {line : Line} (console : Console) (fits : ¬line.TooLong)
    (some : line.cmdStr ≠ []) (notBlank : ¬line.Blank) :
    ∃ wanted arguments, line.Names wanted ∧
      console.turn line = console.perform line arguments wanted := by
  obtain ⟨found, tokenized, -⟩ := tokenizeA_runs_of_short (Line.cmdStr_short fits)
  cases found with
  | nil =>
      exact absurd ⟨some, (tokenizeA_eq_nil_iff (Line.cmdStr_short fits)).mp tokenized⟩ notBlank
  | cons token arguments =>
      refine ⟨command token, arguments, ⟨token, arguments, tokenized, rfl⟩, ?_⟩
      rw [turn, if_neg (show ¬cmdSize ≤ _ from fits), if_neg some, tokenized]

/-! One turn. What a command leaves of the console, but for `/connect`. -/

structure Performed (console next : Console) (line : Line) (wanted : Command) : Prop where
  pSession : next.pSession = console.pSession
  connector : console.pConnector = none → next.pConnector = none
  crashed : next.state = .crashed ↔ (wanted = .enter ∨ wanted = .move) ∧ console.pSession = none
  stopped : next.state = .stopped ↔ wanted = .exit

theorem onSession_performed {console : Console} (reading : console.state = .reading)
    (line : Line) (request : Request) {wanted : Command}
    (needs : wanted = .enter ∨ wanted = .move) :
    Performed console (console.onSession request).1 line wanted := by
  have notExit : wanted ≠ .exit := by
    rcases needs with rfl | rfl
    · exact Command.noConfusion
    · exact Command.noConfusion
  rw [onSession]
  cases session : console.pSession with
  | some slot =>
      refine ⟨session.symm ▸ rfl, id, ?_, ?_⟩
      · simp [reading, session]
      · simp [reading, notExit]
  | none =>
      refine ⟨session.symm ▸ rfl, id, ?_, ?_⟩
      · simp [crash, needs, session]
      · simp [crash, notExit]

theorem perform_performed {console : Console} (reading : console.state = .reading) (line : Line)
    (arguments : List (List UInt8)) {wanted : Command} (other : wanted ≠ .connect) :
    Performed console (console.perform line arguments wanted).1 line wanted := by
  have quiet {command : Command} (calm : command ≠ .enter ∧ command ≠ .move)
      (stays : command ≠ .exit) : Performed console console line command :=
    ⟨rfl, id, by simp [reading, calm], by simp [reading, stays]⟩
  cases wanted with
  | connect => exact absurd rfl other
  | disconnect =>
      rw [perform]
      cases open_ : console.pConnector with
      | none => exact quiet (by decide) (by decide)
      | some connector => exact ⟨rfl, fun _ => rfl, by simp [reading], by simp [reading]⟩
  | auth => exact quiet (by decide) (by decide)
  | enter => exact onSession_performed reading line .enter (Or.inl rfl)
  | leave => exact quiet (by decide) (by decide)
  | move => exact onSession_performed reading line (.move line.position) (Or.inr rfl)
  | send => exact quiet (by decide) (by decide)
  | sendLoop => exact quiet (by decide) (by decide)
  | exit => exact ⟨rfl, id, by simp [perform], by simp [perform]⟩
  | unknown => exact quiet (by decide) (by decide)

theorem perform_connect {console : Console} (reading : console.state = .reading) (line : Line)
    (arguments : List (List UInt8)) :
    (console.perform line arguments .connect).1.state = .reading := by
  rw [perform]
  split
  · rw [attach]
    split
    · exact reading
    · exact reading
  · exact reading
  · exact reading

/-! Runs. -/

/-- What a console that still reads has to show for its lines. -/
structure Reads (lines : List Line) (console : Console) : Prop where
  noExit : ∀ earlier ∈ lines, ¬earlier.Names .exit
  session : console.pSession = none ↔ ∀ earlier ∈ lines, ¬earlier.Connects
  connector : console.pSession = none → console.pConnector = none

/-- The line crashes the client after these. -/
def Line.Crashes (before : List Line) (line : Line) : Prop :=
  line.TooLong ∨ line.Blank ∨ line.UsesSession ∧ ∀ earlier ∈ before, ¬earlier.Connects

theorem Reads.append {lines : List Line} {console next : Console} {line : Line}
    (reads : Reads lines console) (stays : ¬line.Names .exit) (other : ¬line.Connects)
    (session : next.pSession = console.pSession)
    (connector : console.pConnector = none → next.pConnector = none) :
    Reads (lines ++ [line]) next := by
  refine ⟨?_, ?_, ?_⟩
  · rw [List.forall_mem_append, List.forall_mem_singleton]
    exact ⟨reads.noExit, stays⟩
  · rw [session, reads.session, List.forall_mem_append, List.forall_mem_singleton,
      and_iff_left other]
  · intro none
    exact connector (reads.connector (session ▸ none))

theorem Reads.perform_connect {lines : List Line} {console : Console} {line : Line}
    (reads : Reads lines console) (served : line.session ≠ none) (names : line.Names .connect)
    (arguments : List (List UInt8)) :
    Reads (lines ++ [line]) (console.perform line arguments .connect).1 := by
  have stays : ¬line.Names .exit := fun exits => Command.noConfusion (names.unique exits)
  rw [perform]
  cases open_ : console.pConnector with
  | some connector =>
      have attached : console.pSession ≠ none := fun none => by
        rw [reads.connector none] at open_
        cases open_
      refine ⟨?_, ?_, reads.connector⟩
      · rw [List.forall_mem_append, List.forall_mem_singleton]
        exact ⟨reads.noExit, stays⟩
      · refine iff_of_false attached fun never => attached (reads.session.mpr ?_)
        exact (List.forall_mem_append.mp never).1
  | none =>
      cases answer : line.connector with
      | none =>
          have other : ¬line.Connects := fun connects => by
            rw [Line.Connects, answer] at connects
            exact Bool.false_ne_true connects.2
          exact reads.append stays other rfl id
      | some connector =>
          obtain ⟨session, got⟩ := Option.ne_none_iff_exists'.mp served
          have connects : line.Connects := ⟨names, by rw [answer]; rfl⟩
          simp only [attach, got]
          refine ⟨?_, ?_, fun none => absurd none (Option.some_ne_none _)⟩
          · rw [List.forall_mem_append, List.forall_mem_singleton]
            exact ⟨reads.noExit, stays⟩
          · refine iff_of_false (Option.some_ne_none _) fun never => ?_
            exact never line (by simp) connects

theorem turn_spec {lines : List Line} {console : Console} {line : Line}
    (reading : console.state = .reading) (reads : Reads lines console)
    (served : line.session ≠ none) :
    ((console.turn line).1.state = .crashed ↔ line.Crashes lines) ∧
      ((console.turn line).1.state = .reading → Reads (lines ++ [line]) (console.turn line).1) ∧
      ((console.turn line).1.state = .stopped → line.Names .exit) := by
  have crashing (bad : line.Crashes lines) (crash_ : console.turn line = console.crash) :
      ((console.turn line).1.state = .crashed ↔ line.Crashes lines) ∧
        ((console.turn line).1.state = .reading → Reads (lines ++ [line]) (console.turn line).1) ∧
        ((console.turn line).1.state = .stopped → line.Names .exit) := by
    rw [crash_]
    exact ⟨iff_of_true rfl bad, fun same => State.noConfusion same,
      fun same => State.noConfusion same⟩
  by_cases long : line.TooLong
  · exact crashing (Or.inl long) (turn_tooLong console long)
  by_cases blank : line.Blank
  · exact crashing (Or.inr (Or.inl blank)) (turn_blank console long blank)
  have bad : line.Crashes lines ↔
      line.UsesSession ∧ ∀ earlier ∈ lines, ¬earlier.Connects := by
    rw [Line.Crashes, or_iff_right long, or_iff_right blank]
  rw [bad]
  by_cases empty : line.cmdStr = []
  · obtain ⟨same, nothing⟩ := turn_empty console long empty
    rw [same]
    refine ⟨iff_of_false ?_ ?_, ?_, ?_⟩
    · rw [reading]
      exact State.noConfusion
    · rintro ⟨enter | move, -⟩
      · exact nothing _ enter
      · exact nothing _ move
    · intro
      exact reads.append (nothing _) (fun connects => nothing _ connects.1) rfl id
    · intro stopped
      exact State.noConfusion (reading.symm.trans stopped)
  obtain ⟨wanted, arguments, names, same⟩ := turn_command console long empty blank
  rw [same]
  have uses : line.UsesSession ↔ wanted = .enter ∨ wanted = .move := by
    constructor
    · rintro (enter | move)
      · exact Or.inl (names.unique enter)
      · exact Or.inr (names.unique move)
    · rintro (rfl | rfl)
      · exact Or.inl names
      · exact Or.inr names
  by_cases connect : wanted = .connect
  · subst connect
    have state := perform_connect reading line arguments
    refine ⟨iff_of_false ?_ ?_, fun _ => reads.perform_connect served names arguments, ?_⟩
    · rw [state]
      exact State.noConfusion
    · rw [uses]
      rintro ⟨same | same, -⟩
      · cases same
      · cases same
    · intro stopped
      exact State.noConfusion (state.symm.trans stopped)
  · have performed := perform_performed reading line arguments connect
    refine ⟨?_, ?_, ?_⟩
    · rw [performed.crashed, uses, reads.session]
    · intro still
      refine reads.append ?_ ?_ performed.pSession performed.connector
      · intro exits
        have stopped := performed.stopped.mpr (names.unique exits)
        exact State.noConfusion (still.symm.trans stopped)
      · intro connects
        exact connect (names.unique connects.1)
    · intro stopped
      exact performed.stopped.mp stopped ▸ names

theorem run_append_one (lines : List Line) (line : Line) :
    (run (lines ++ [line])).1 = ((run lines).1.step line).1 := by
  rw [run, Run.run_append]
  rfl

/-- The console has crashed on one of the lines, has left one that says `/exit` behind it, or
still reads. -/
theorem run_spec (lines : List Line) (served : ∀ line ∈ lines, line.session ≠ none) :
    ((run lines).1.state = .crashed ∧ ∃ before line rest, lines = before ++ line :: rest ∧
      (∀ earlier ∈ before, ¬earlier.Names .exit) ∧ line.Crashes before) ∨
    ((run lines).1.state = .stopped ∧ ∃ before line rest, lines = before ++ line :: rest ∧
      (∀ earlier ∈ before, ¬earlier.Names .exit) ∧ line.Names .exit ∧
      ∀ first earlier later, before ++ [line] = first ++ earlier :: later →
        ¬earlier.Crashes first) ∨
    (run lines).1.state = .reading ∧ Reads lines (run lines).1 ∧
      ∀ first earlier later, lines = first ++ earlier :: later → ¬earlier.Crashes first := by
  induction lines using List.reverseRecOn with
  | nil =>
      refine Or.inr (Or.inr ⟨rfl, ⟨by simp, by simp [run], fun _ => rfl⟩, ?_⟩)
      intro first earlier later split
      exact absurd split.symm (by simp)
  | append_singleton lines line ih =>
      have before := ih fun earlier member => served earlier (by simp [member])
      rw [run_append_one]
      rcases before with ⟨crashed, front, bad, rest, split, others⟩ |
        ⟨stopped, front, exit, rest, split, others⟩ | ⟨reading, reads, fine⟩
      · refine Or.inl ⟨?_, front, bad, rest ++ [line], by simp [split], others⟩
        rw [step, crashed]
        exact crashed
      · refine Or.inr (Or.inl ⟨?_, front, exit, rest ++ [line], by simp [split], others⟩)
        rw [step, stopped]
        exact stopped
      · have turned : (run lines).1.step line = (run lines).1.turn line := by rw [step, reading]
        obtain ⟨crashes, stays, stops⟩ := turn_spec reading reads (served line (by simp))
        rw [turned]
        have soFar (harmless : ¬line.Crashes lines) (first : List Line) (earlier : Line)
            (later : List Line) (split : lines ++ [line] = first ++ earlier :: later) :
            ¬earlier.Crashes first := by
          rcases append_eq_append_cons split with ⟨middle, same, -⟩ | ⟨middle, rfl, tail⟩
          · exact fine first earlier middle same
          · cases middle with
            | nil =>
                rw [List.nil_append, List.cons.injEq] at tail
                rw [List.append_nil]
                exact tail.1 ▸ harmless
            | cons one middle => simp at tail
        cases state : ((run lines).1.turn line).1.state with
        | crashed =>
            exact Or.inl ⟨rfl, lines, line, [], rfl, reads.noExit, crashes.mp state⟩
        | stopped =>
            have harmless : ¬line.Crashes lines := fun bad =>
              State.noConfusion (state.symm.trans (crashes.mpr bad))
            exact Or.inr (Or.inl ⟨rfl, lines, line, [], rfl, reads.noExit, stops state,
              soFar harmless⟩)
        | reading =>
            have harmless : ¬line.Crashes lines := fun bad =>
              State.noConfusion (state.symm.trans (crashes.mpr bad))
            exact Or.inr (Or.inr ⟨rfl, stays state, soFar harmless⟩)

/-- The client crashes on exactly one of these in front of an `/exit`: a line that does not fit
into the buffer, one of blanks only, and `/enter` or `/move`, with any of its first letters that no
other command takes, while no `/connect` has succeeded. -/
theorem crashes_iff (lines : List Line) (served : ∀ line ∈ lines, line.session ≠ none) :
    (run lines).1.state = .crashed ↔ ∃ before line rest, lines = before ++ line :: rest ∧
      (∀ earlier ∈ before, ¬earlier.Names .exit) ∧
      (line.TooLong ∨ line.Blank ∨ line.UsesSession ∧ ∀ earlier ∈ before, ¬earlier.Connects) := by
  constructor
  · intro crashed
    rcases run_spec lines served with ⟨-, found⟩ | ⟨stopped, -⟩ | ⟨reading, -⟩
    · exact found
    · exact State.noConfusion (crashed.symm.trans stopped)
    · exact State.noConfusion (crashed.symm.trans reading)
  · rintro ⟨before, line, rest, split, noExit, bad⟩
    rcases run_spec lines served with ⟨crashed, -⟩ | ⟨-, front, exit, later, same, -, exits, fine⟩ |
      ⟨-, -, fine⟩
    · exact crashed
    · exfalso
      rw [split] at same
      rcases append_eq_append_cons same with ⟨middle, rfl, -⟩ | ⟨middle, rfl, tail⟩
      · exact noExit exit (by simp) exits
      · cases middle with
        | nil =>
            rw [List.nil_append, List.cons.injEq] at tail
            exact fine before exit [] (by simp) (tail.1 ▸ bad)
        | cons first middle =>
            rw [List.cons_append, List.cons.injEq] at tail
            exact fine before first (middle ++ [exit]) (by simp) (tail.1 ▸ bad)
    · exact absurd bad (fine before line rest split)

open Certify (chars) in
def twoConnections : List Line :=
  [{ text := chars "/connect", connector := some 4, session := some 0 },
    { text := chars "/a", session := some 0 },
    { text := chars "/disconnect", session := some 0 },
    { text := chars "/connect", connector := some 5, session := some 1 },
    { text := chars "/enter now", session := some 0 },
    { text := chars " ", session := some 0 }]

theorem crashes_iff_twoConnections :
    (run twoConnections).1.state = .crashed ∧
      ∃ before line rest, twoConnections = before ++ line :: rest ∧
        (∀ earlier ∈ before, ¬earlier.Names .exit) ∧
        (line.TooLong ∨ line.Blank ∨
          line.UsesSession ∧ ∀ earlier ∈ before, ¬earlier.Connects) := by
  have crashed : (run twoConnections).1.state = .crashed := by decide
  exact ⟨crashed, (crashes_iff twoConnections (by decide)).mp crashed⟩

/-! The session of the requests. -/

def Call.attached : Call → Option Nat
  | .attach _ session => some session
  | _ => none

def lastAttached (calls : List Call) : Option Nat := (calls.filterMap Call.attached).getLast?

theorem lastAttached_append_one {calls : List Call} {call : Call} {session : Nat}
    (attaches : call.attached = some session) : lastAttached (calls ++ [call]) = some session := by
  rw [lastAttached, List.filterMap_append, List.filterMap_cons_some attaches, List.filterMap_nil,
    List.getLast?_concat]

theorem lastAttached_append_of_none {calls later : List Call}
    (quiet : ∀ call ∈ later, call.attached = none) :
    lastAttached (calls ++ later) = lastAttached calls := by
  rw [lastAttached, List.filterMap_append, List.filterMap_eq_nil_iff.mpr quiet, List.append_nil,
    lastAttached]

/-- Calls that attach nothing, with every request on the session there is. -/
def OnSession (console : Console) (calls : List Call) : Prop :=
  ∀ call ∈ calls, call.attached = none ∧
    ∀ session request, call = .request session request → console.pSession = some session

theorem onSession_nil (console : Console) : OnSession console [] := fun _ member => by cases member

theorem ifSession_onSession (console : Console) (requests : List Request) :
    OnSession console (console.ifSession requests) := by
  intro call member
  rw [ifSession] at member
  cases attached : console.pSession with
  | none =>
      rw [attached] at member
      cases member
  | some session =>
      rw [attached] at member
      obtain ⟨request, -, rfl⟩ := List.mem_map.mp member
      refine ⟨rfl, ?_⟩
      rintro other made ⟨⟩
      rfl

/-- A turn either makes its requests on the session there is, or makes none and changes it. -/
def Turned (console : Console) (result : Console × List Call) : Prop :=
  result.1.pSession = console.pSession ∧ OnSession console result.2 ∨
    (∃ connector session,
      result.2 = [.attach connector session] ∧ result.1.pSession = some session) ∨
    ∃ connector, result.2 = [.disconnect connector] ∧ result.1.pSession = none

theorem onSession_turned (console : Console) (request : Request) :
    Turned console (console.onSession request) := by
  refine Or.inl ?_
  rw [onSession]
  cases attached : console.pSession with
  | none => exact ⟨attached, onSession_nil console⟩
  | some session =>
      refine ⟨attached, fun call member => ?_⟩
      rw [List.mem_singleton.mp member]
      refine ⟨rfl, ?_⟩
      rintro other made ⟨⟩
      exact attached

theorem perform_turned (console : Console) (line : Line) (arguments : List (List UInt8))
    (wanted : Command) : Turned console (console.perform line arguments wanted) := by
  have quiet (next : Console) (same : next.pSession = console.pSession) (call : Call)
      (attached : call.attached = none)
      (other : ∀ session request, call ≠ .request session request) :
      Turned console (next, [call]) := by
    refine Or.inl ⟨same, fun one member => ?_⟩
    rw [List.mem_singleton.mp member]
    exact ⟨attached, fun session request made => absurd made (other session request)⟩
  cases wanted with
  | connect =>
      rw [perform]
      cases console.pConnector with
      | some connector => exact Or.inl ⟨rfl, onSession_nil console⟩
      | none =>
          cases line.connector with
          | none => exact Or.inl ⟨rfl, onSession_nil console⟩
          | some connector =>
              simp only [attach]
              cases got : line.session with
              | some session => exact Or.inr (Or.inl ⟨connector, session, rfl, rfl⟩)
              | none => exact Or.inr (Or.inr ⟨connector, rfl, rfl⟩)
  | disconnect =>
      rw [perform]
      split
      · exact quiet _ rfl _ rfl fun _ _ => Call.noConfusion
      · exact Or.inl ⟨rfl, onSession_nil console⟩
  | auth => exact Or.inl ⟨rfl, ifSession_onSession console _⟩
  | enter => exact onSession_turned console _
  | leave => exact Or.inl ⟨rfl, onSession_nil console⟩
  | move => exact onSession_turned console _
  | send => exact Or.inl ⟨rfl, ifSession_onSession console _⟩
  | sendLoop => exact Or.inl ⟨rfl, ifSession_onSession console _⟩
  | exit => exact quiet _ rfl _ rfl fun _ _ => Call.noConfusion
  | unknown => exact quiet _ rfl _ rfl fun _ _ => Call.noConfusion

theorem step_turned (console : Console) (line : Line) :
    Turned console (console.step line) := by
  have crash_ : Turned console console.crash := Or.inl ⟨rfl, onSession_nil console⟩
  have same : Turned console (console, []) := Or.inl ⟨rfl, onSession_nil console⟩
  rw [step]
  split
  · rw [turn]
    split
    · exact crash_
    · split
      · exact same
      · split
        · exact perform_turned console line _ _
        · exact crash_
        · exact crash_
  · exact same
  · exact same

/-- What holds of the calls so far, with the session that a console has after them. -/
structure Follows (console : Console) (calls : List Call) : Prop where
  attached : ∀ slot, console.pSession = some slot → lastAttached calls = some slot
  requests : ∀ before after slot request, calls = before ++ .request slot request :: after →
    lastAttached before = some slot

theorem Follows.requests_append {console : Console} {calls : List Call}
    (follows : Follows console calls) {call : Call} (other : ∀ slot request,
      call ≠ .request slot request) {before after : List Call} {slot : Nat} {request : Request}
    (split : calls ++ [call] = before ++ .request slot request :: after) :
    lastAttached before = some slot := by
  rcases append_eq_append_cons split with ⟨middle, same, -⟩ | ⟨middle, -, tail⟩
  · exact follows.requests before middle slot request same
  · have member : Call.request slot request ∈ [call] := by simp [tail]
    exact absurd (List.mem_singleton.mp member).symm (other slot request)

theorem Follows.turned {console : Console} {calls : List Call} {result : Console × List Call}
    (follows : Follows console calls) (turned : Turned console result) :
    Follows result.1 (calls ++ result.2) := by
  rcases turned with ⟨same, onSession_⟩ | ⟨connector, slot, only, now⟩ | ⟨connector, only, now⟩
  · have quiet : ∀ call ∈ result.2, call.attached = none :=
      fun call member => (onSession_ call member).1
    refine ⟨fun slot here => ?_, fun before after slot request split => ?_⟩
    · rw [lastAttached_append_of_none quiet]
      exact follows.attached slot (same ▸ here)
    · rcases append_eq_append_cons split with ⟨middle, same, -⟩ | ⟨middle, rfl, tail⟩
      · exact follows.requests before middle slot request same
      · have mine := (onSession_ (.request slot request) (by simp [tail])).2 slot request rfl
        rw [lastAttached_append_of_none fun call member => quiet call (by simp [tail, member])]
        exact follows.attached slot mine
  · rw [only]
    refine ⟨fun other here => ?_, fun before after other request =>
      follows.requests_append fun _ _ => Call.noConfusion⟩
    rw [lastAttached_append_one rfl]
    exact now.symm.trans here
  · rw [only]
    refine ⟨fun other here => ?_, fun before after other request =>
      follows.requests_append fun _ _ => Call.noConfusion⟩
    exact absurd (now.symm.trans here) (Option.some_ne_none other).symm

theorem run_follows (lines : List Line) : Follows (run lines).1 (run lines).2.flatten := by
  induction lines using List.reverseRecOn with
  | nil =>
      refine ⟨fun slot attached => absurd attached (Option.some_ne_none slot).symm, ?_⟩
      intro before after slot request split
      exact absurd split (List.append_ne_nil_of_right_ne_nil _ (List.cons_ne_nil _ _)).symm
  | append_singleton lines line ih =>
      have calls : (run (lines ++ [line])).2.flatten =
          (run lines).2.flatten ++ ((run lines).1.step line).2 := by
        rw [run, Run.run_append]
        simp [run]
      rw [run_append_one, calls]
      exact ih.turned (step_turned _ line)

/-- Every request is made on the session that was attached last, also after `/disconnect`. -/
theorem requests_follow_attach (lines : List Line) (before after : List Call) (session : Nat)
    (request : Request)
    (split : (run lines).2.flatten = before ++ .request session request :: after) :
    lastAttached before = some session :=
  (run_follows lines).requests before after session request split

theorem requests_follow_attach_twoConnections :
    lastAttached [.attach 4 0, .request 0 .auth, .disconnect 4, .attach 5 1] = some 1 :=
  requests_follow_attach twoConnections _ [] 1 .enter (by decide)

end Console

end ProjectPl
