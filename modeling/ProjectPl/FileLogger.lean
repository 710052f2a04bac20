import ProjectPl.Lib.Run

/-!
`FileLogger` of `_lib/log.cpp`: messages gather in a queue and go to the log file in batches. Every
file opens. A file is the list of the lines that `fwprintf_s` wrote to it, and `print` is what the
stream makes of a line.
-/

namespace ProjectPl

abbrev WString := List UInt16

/-- What `%s` reads of a `wstring`, which ends at the first NUL. -/
def WString.cStr (wstr : WString) : WString := wstr.takeWhile (· ≠ 0)

inductive LogDivideType
  | day
  | hour
  | min

/-- The fields of `CTimeSet` that a file name has. -/
structure LogTime where
  year : Nat
  month : Nat
  day : Nat
  hour : Nat
  min : Nat

structure FileLogger where
  fileName : String
  divideType : LogDivideType := .day
  msgQueue : List WString := []
  maxQueueSize : Nat := 20

/-- The logger with the files of the directory. `writes` records what each `FileWrite` wrote and
where, and no step reads it. -/
structure LogState where
  logger : FileLogger
  files : String → Option (List WString)
  writes : List (String × List WString) := []

def LogState.lines (state : LogState) : List WString := state.writes.flatMap Prod.snd

inductive LogCall
  | addMessage (wstr : WString)
  | flush (force : Bool)

namespace FileLogger

def zeroPadded (width value : Nat) : String :=
  let digits := toString value
  String.pushn "" '0' (width - digits.length) ++ digits

def logFileName (logger : FileLogger) (time : LogTime) : String :=
  let day := "log\\" ++ logger.fileName ++ "_" ++ zeroPadded 4 time.year ++ "-" ++
    zeroPadded 2 time.month ++ "-" ++ zeroPadded 2 time.day
  match logger.divideType with
  | .day => day ++ ".log"
  | .hour => day ++ "_" ++ zeroPadded 2 time.hour ++ ".log"
  | .min => day ++ "_" ++ zeroPadded 2 time.hour ++ "-" ++ zeroPadded 2 time.min ++ ".log"

variable (print : WString → WString)

/-- The mode is `"a"` for a file that is there, else `"w"`. -/
def fileWrite (time : LogTime) (list : List WString) (state : LogState) : LogState :=
  let name := state.logger.logFileName time
  let lines := list.map fun wstr => print wstr.cStr
  let opened :=
    match state.files name with
    | none => []
    | some before => before
  { state with
    files := Function.update state.files name (some (opened ++ lines))
    writes := state.writes ++ [(name, lines)] }

def flush (time : LogTime) (force : Bool) (state : LogState) : LogState :=
  if force = false ∧ state.logger.msgQueue.length < state.logger.maxQueueSize then state
  else
    fileWrite print time state.logger.msgQueue
      { state with logger := { state.logger with msgQueue := [] } }

def addMessage (time : LogTime) (wstr : WString) (state : LogState) : LogState :=
  if state.logger.maxQueueSize ≤ 1 then fileWrite print time [wstr.cStr] state
  else
    flush print time false
      { state with logger := { state.logger with msgQueue := state.logger.msgQueue ++ [wstr] } }

def destroy (time : LogTime) (state : LogState) : LogState := flush print time false state

def perform (state : LogState) (call : LogTime × LogCall) : LogState :=
  match call.2 with
  | .addMessage wstr => addMessage print call.1 wstr state
  | .flush force => flush print call.1 force state

def lifetime (fileName : String) (files : String → Option (List WString))
    (calls : List (LogTime × LogCall)) (last : LogTime) : LogState :=
  destroy print last (calls.foldl (perform print) { logger := { fileName }, files })

def added (calls : List (LogTime × LogCall)) : List WString :=
  calls.filterMap fun call =>
    match call.2 with
    | .addMessage wstr => some wstr
    | .flush _ => none

/-- How many messages the calls add after the last forced flush. -/
def sinceForced (calls : List (LogTime × LogCall)) : Nat :=
  calls.foldl (fun count call =>
    match call.2 with
    | .addMessage _ => count + 1
    | .flush force => if force then 0 else count) 0

def Prints (wstr : WString) : Prop := print wstr.cStr = wstr

instance : DecidablePred (Prints print) :=
  fun wstr => inferInstanceAs (Decidable (print wstr.cStr = wstr))

/-- What the files hold is what the writes put there. -/
def Recorded (files : String → Option (List WString)) (state : LogState) : Prop :=
  ∀ name, (state.files name).getD [] =
    (files name).getD [] ++ (state.writes.filter (·.1 = name)).flatMap Prod.snd

/-- After these calls, the messages are the written ones and then the queue. -/
structure Batches (calls : List (LogTime × LogCall)) (state : LogState) : Prop where
  batch : state.logger.maxQueueSize = 20
  queued : state.logger.msgQueue.length = sinceForced calls % 20
  split : ∃ written, added calls = written ++ state.logger.msgQueue ∧
    state.lines = written.map fun wstr => print wstr.cStr

variable {print} {calls : List (LogTime × LogCall)} {state : LogState}
  {files : String → Option (List WString)}

theorem fileWrite_lines (time : LogTime) (list : List WString) :
    (fileWrite print time list state).lines =
      state.lines ++ list.map fun wstr => print wstr.cStr := by
  simp only [fileWrite, LogState.lines, List.flatMap_append, List.flatMap_singleton]

theorem fileWrite_recorded (time : LogTime) (list : List WString)
    (recorded : Recorded files state) : Recorded files (fileWrite print time list state) := by
  intro name
  have before := recorded name
  simp only [fileWrite, List.filter_append, List.flatMap_append, ← List.append_assoc]
  by_cases same : state.logger.logFileName time = name
  · subst same
    rw [← before, Function.update_self]
    cases there : state.files (state.logger.logFileName time) <;> simp
  · rw [Function.update_of_ne (Ne.symm same), before]
    simp [same]

theorem flush_recorded (time : LogTime) (force : Bool) (recorded : Recorded files state) :
    Recorded files (flush print time force state) := by
  rw [flush]
  by_cases short : force = false ∧ state.logger.msgQueue.length < state.logger.maxQueueSize
  · rw [if_pos short]
    exact recorded
  · rw [if_neg short]
    exact fileWrite_recorded _ _ recorded

theorem perform_recorded (call : LogTime × LogCall) (recorded : Recorded files state) :
    Recorded files (perform print state call) := by
  obtain ⟨time, call⟩ := call
  cases call with
  | flush force => exact flush_recorded time force recorded
  | addMessage wstr =>
      change Recorded files (addMessage print time wstr state)
      rw [addMessage]
      by_cases unqueued : state.logger.maxQueueSize ≤ 1
      · rw [if_pos unqueued]
        exact fileWrite_recorded _ _ recorded
      · rw [if_neg unqueued]
        exact flush_recorded _ _ recorded

theorem lifetime_recorded (fileName : String) (last : LogTime) :
    Recorded files (lifetime print fileName files calls last) := by
  refine flush_recorded _ _ ?_
  induction calls using List.reverseRecOn with
  | nil => exact fun name => (List.append_nil _).symm
  | append_singleton calls call ih =>
      rw [List.foldl_append]
      exact perform_recorded call ih

/-! One call. -/

theorem Batches.write {extended : List (LogTime × LogCall)} {batch : List WString}
    (state : LogState) (time : LogTime) (queue : state.logger.msgQueue = batch)
    (size : state.logger.maxQueueSize = 20)
    (split : ∃ written, added extended = written ++ batch ∧
      state.lines = written.map fun wstr => print wstr.cStr)
    (empty : sinceForced extended % 20 = 0) :
    Batches print extended (fileWrite print time state.logger.msgQueue
      { state with logger := { state.logger with msgQueue := [] } }) where
  batch := size
  queued := empty.symm
  split := by
    obtain ⟨written, messages, lines⟩ := split
    refine ⟨written ++ batch, ?_, ?_⟩
    · rw [messages, List.append_assoc]
      exact (congrArg _ (List.append_nil batch)).symm
    · rw [fileWrite_lines, List.map_append, ← lines, queue]
      rfl

theorem Batches.flush (batches : Batches print calls state) (time : LogTime) (force : Bool) :
    Batches print (calls ++ [(time, .flush force)])
      (FileLogger.flush print time force state) := by
  have same : added (calls ++ [(time, .flush force)]) = added calls := by
    rw [added, List.filterMap_append]
    exact List.append_nil _
  have count : sinceForced (calls ++ [(time, .flush force)]) =
      if force then 0 else sinceForced calls := by
    rw [sinceForced, List.foldl_append]
    rfl
  have below : state.logger.msgQueue.length < 20 := batches.queued ▸ Nat.mod_lt _ (by decide)
  rw [FileLogger.flush, batches.batch]
  cases force with
  | false =>
      rw [if_pos ⟨rfl, below⟩]
      exact ⟨batches.batch, count ▸ batches.queued, same ▸ batches.split⟩
  | true =>
      rw [if_neg fun short => Bool.noConfusion short.1]
      exact .write state time rfl batches.batch (same ▸ batches.split) (by rw [count]; rfl)

theorem Batches.addMessage (batches : Batches print calls state) (time : LogTime)
    (wstr : WString) :
    Batches print (calls ++ [(time, .addMessage wstr)])
      (FileLogger.addMessage print time wstr state) := by
  have more : added (calls ++ [(time, .addMessage wstr)]) = added calls ++ [wstr] := by
    rw [added, List.filterMap_append]
    rfl
  have count : sinceForced (calls ++ [(time, .addMessage wstr)]) = sinceForced calls + 1 := by
    rw [sinceForced, List.foldl_append]
    rfl
  obtain ⟨written, messages, lines⟩ := batches.split
  have split : ∃ written, added (calls ++ [(time, .addMessage wstr)]) =
      written ++ (state.logger.msgQueue ++ [wstr]) ∧
        state.lines = written.map fun wstr => print wstr.cStr :=
    ⟨written, by rw [more, messages, List.append_assoc], lines⟩
  have queued := batches.queued
  have batch : ¬state.logger.maxQueueSize ≤ 1 := by
    rw [batches.batch]
    decide
  rw [FileLogger.addMessage, if_neg batch, FileLogger.flush, batches.batch, List.length_append]
  by_cases short : state.logger.msgQueue.length + [wstr].length < 20
  · rw [if_pos ⟨rfl, short⟩]
    refine ⟨batches.batch, ?_, split⟩
    rw [List.length_singleton] at short
    rw [count, List.length_append, List.length_singleton]
    omega
  · rw [if_neg fun both => short both.2]
    refine .write { state with
      logger := { state.logger with msgQueue := state.logger.msgQueue ++ [wstr] } }
      time rfl batches.batch split ?_
    rw [List.length_singleton] at short
    rw [count]
    omega

/-! The whole life. -/

theorem foldl_batches (fileName : String) (files : String → Option (List WString)) :
    Batches print calls (calls.foldl (perform print) { logger := { fileName }, files }) := by
  induction calls using List.reverseRecOn with
  | nil => exact ⟨rfl, rfl, [], rfl, rfl⟩
  | append_singleton calls call ih =>
      obtain ⟨time, call⟩ := call
      rw [List.foldl_append]
      cases call with
      | addMessage wstr => exact ih.addMessage time wstr
      | flush force => exact ih.flush time force

/-- The destructor flushes without force, and what is less than a batch stays in the queue. -/
theorem lifetime_lines (fileName : String) (last : LogTime) :
    (lifetime print fileName files calls last).lines =
      (calls.foldl (perform print) { logger := { fileName }, files }).lines := by
  have batches : Batches print calls _ := foldl_batches fileName files
  have below := batches.queued ▸ Nat.mod_lt (sinceForced calls) (show 20 > 0 by decide)
  rw [lifetime, destroy, flush, if_pos ⟨rfl, by rw [batches.batch]; exact below⟩]

/-- Every file has grown by the lines that went to it, and these lines are the messages exactly when
the messages since the last forced flush are whole batches and every message prints. -/
theorem lifetime_lines_iff (print : WString → WString) (fileName : String)
    (files : String → Option (List WString)) (calls : List (LogTime × LogCall))
    (last : LogTime) :
    Recorded files (lifetime print fileName files calls last) ∧
      ((lifetime print fileName files calls last).lines = added calls ↔
        sinceForced calls % 20 = 0 ∧ ∀ wstr ∈ added calls, Prints print wstr) := by
  refine ⟨lifetime_recorded fileName last, ?_⟩
  have batches : Batches print calls _ := foldl_batches fileName files
  obtain ⟨written, messages, lines⟩ := batches.split
  rw [lifetime_lines, lines, ← batches.queued, List.length_eq_zero_iff, messages]
  constructor
  · intro same
    have empty : (calls.foldl (perform print)
        { logger := { fileName }, files }).logger.msgQueue = [] := by
      have lengths := congrArg List.length same
      rw [List.length_map, List.length_append] at lengths
      exact List.length_eq_zero_iff.mp (by omega)
    rw [empty, List.append_nil] at same ⊢
    exact ⟨rfl, List.map_inj_left.mp (same.trans (List.map_id written).symm)⟩
  · rintro ⟨empty, prints⟩
    rw [empty, List.append_nil] at prints ⊢
    exact (List.map_inj_left.mpr prints).trans (List.map_id written)

theorem lifetime_loses :
    ¬∀ (print : WString → WString) (fileName : String) (files : String → Option (List WString))
      (calls : List (LogTime × LogCall)) (last : LogTime),
      (∀ wstr ∈ added calls, Prints print wstr) →
        (lifetime print fileName files calls last).lines = added calls := by
  intro always
  let noon : LogTime := { year := 2025, month := 2, day := 14, hour := 12, min := 0 }
  have printed : ∀ wstr ∈ added [(noon, .addMessage [72, 105])], Prints id wstr := by decide
  exact absurd (always id "server" (fun _ => none) [(noon, .addMessage [72, 105])] noon printed)
    (List.cons_ne_nil _ _).symm

end FileLogger

end ProjectPl
