import Laterite.CallTraces
import Laterite.ChainAccounts
import Laterite.TextEncodings

/-!
# The runtime's log lines

The runtime logs a line when it enters a program, one for each message and each data of the
program, and one when the program ends. Whatever a program logs is marked as its own by how the
line begins, so the lines of the runtime tell which program was running, and where one failed.
-/

namespace Laterite.Logs

open CallTraces TextEncodings

abbrev Line := Text

inductive Entry where
  | log (message : Line)
  | data (fields : List (List UInt8))
  | returned (bytes : List UInt8)
  | consumption (remaining : ℕ)

/-- How a program ended. -/
inductive Outcome where
  | success
  | failed (error : Line)

/-- An invocation of a program, with the accounts and the data it was given, how it ended and the
compute units it used when the runtime counts them. -/
structure ProgramCall where
  program : Pubkey
  accounts : List Pubkey
  data : List UInt8
  outcome : Outcome
  consumed : Option (ℕ × ℕ)

abbrev Execution := Trace ProgramCall Entry

def decimal (n : ℕ) : Line := Nat.toDigits 10 n

def addressText (address : Pubkey) : Line := base58 address.toList

def invokeLine (program : Pubkey) (depth : ℕ) : Line :=
  "Program ".toList ++ (addressText program ++ (" invoke [".toList ++ (decimal depth ++ "]".toList)))

def endLine (program : Pubkey) : Outcome → Line
  | .success => "Program ".toList ++ (addressText program ++ " success".toList)
  | .failed error => "Program ".toList ++ (addressText program ++ (" failed: ".toList ++ error))

def consumedLine (program : Pubkey) (consumed : ℕ × ℕ) : Line :=
  "Program ".toList ++ (addressText program ++ (" consumed ".toList ++ (decimal consumed.1 ++
    (" of ".toList ++ (decimal consumed.2 ++ " compute units".toList)))))

def dataText (fields : List (List UInt8)) : Line := [' '].intercalate (fields.map base64)

def entryLine (program : Line) : Entry → Line
  | .log message => "Program log: ".toList ++ message
  | .data fields => "Program data: ".toList ++ dataText fields
  | .returned bytes => "Program return: ".toList ++ (program ++ (' ' :: base64 bytes))
  | .consumption remaining =>
    "Program consumption: ".toList ++ (decimal remaining ++ " units remaining".toList)

/-- The lines of what runs at a depth, inside a program. -/
def render (program : Line) (depth : ℕ) : Execution → List Line
  | .nothing => []
  | .logs entry rest => entryLine program entry :: render program depth rest
  | .calls call body rest =>
    invokeLine call.program depth :: (render (addressText call.program) (depth + 1) body ++
      ((call.consumed.map (consumedLine call.program)).toList ++ [endLine call.program call.outcome] ++
        render program depth rest))

def logLines (execution : Execution) : List Line := render [] 1 execution

def programLine (line : Line) : Option (Line × Line) :=
  match stripPrefix "Program ".toList line with
  | none => none
  | some rest =>
    if rest.takeWhile isWord = [] then none else some (rest.takeWhile isWord, rest.dropWhile isWord)

def invoked (line : Line) : Option Line :=
  match programLine line with
  | none => none
  | some (program, rest) =>
    match stripPrefix " invoke [".toList rest with
    | none => none
    | some digits =>
      if digits.takeWhile Char.isDigit ≠ [] ∧ digits.dropWhile Char.isDigit = "]".toList then some program
      else none

def ended (line : Line) : Bool :=
  match programLine line with
  | none => false
  | some (_, rest) =>
    (stripPrefix " success".toList rest).isSome || (stripPrefix " failed".toList rest).isSome

def failedProgram (line : Line) : Option Line :=
  match programLine line with
  | none => none
  | some (program, rest) => if (stripPrefix " failed".toList rest).isSome then some program else none

def succeeded (line : Line) : Bool :=
  match programLine line with
  | none => false
  | some (_, rest) => rest = " success".toList

section Reading

variable (laterite : Line)

/-- The data lines read while `running`, the innermost program first, runs; nothing when one is
not base 64. -/
def readEvents (running : List Line) : List Line → Option (List (List UInt8))
  | [] => some []
  | line :: lines =>
    match invoked line with
    | some program => readEvents (program :: running) lines
    | none =>
      if ended line then readEvents running.tail lines
      else
        match stripPrefix "Program data: ".toList line with
        | none => readEvents running lines
        | some text =>
          if running.head? = some laterite then do
            let event ← fromBase64 text
            let events ← readEvents running lines
            return event :: events
          else readEvents running lines

/-- The data of the events Laterite logged, in order. -/
def getLateriteLogEvents (logs : List Line) : Option (List (List UInt8)) := readEvents laterite [] logs

end Reading

/-- The programs running at the first failure, the innermost first; those still running when
there was none. -/
def failingStack (stack : List Line) : List Line → List Line
  | [] => stack
  | line :: lines =>
    match invoked line with
    | some program => failingStack (program :: stack) lines
    | none =>
      if (failedProgram line).isSome ∧ stack.head? = failedProgram line then stack
      else if succeeded line then failingStack stack.tail lines
      else failingStack stack lines

/-- The programs invoked at the first failure, outermost first. -/
def failingInvocation (logs : List Line) : List Line := (failingStack [] logs).reverse

theorem takeWhile_word {word rest : Line} {c : Char} (hword : ∀ d ∈ word, isWord d = true)
    (hstop : isWord c = false) : (word ++ c :: rest).takeWhile isWord = word := by
  rw [List.takeWhile_append_of_pos hword, List.takeWhile_cons, hstop]
  exact List.append_nil word

theorem dropWhile_word {word rest : Line} {c : Char} (hword : ∀ d ∈ word, isWord d = true)
    (hstop : isWord c = false) : (word ++ c :: rest).dropWhile isWord = c :: rest := by
  rw [List.dropWhile_append_of_pos hword, List.dropWhile_cons, hstop]
  rfl

theorem programLine_word {word rest : Line} {c : Char} (hword : ∀ d ∈ word, isWord d = true)
    (hne : word ≠ []) (hstop : isWord c = false) :
    programLine ("Program ".toList ++ (word ++ c :: rest)) = some (word, c :: rest) := by
  unfold programLine
  rw [stripPrefix_append]
  dsimp only
  rw [takeWhile_word hword hstop, dropWhile_word hword hstop, if_neg hne]

theorem isWord_addressText (address : Pubkey) : ∀ c ∈ addressText address, isWord c = true :=
  fun _ h => isWord_of_mem_base58 h

theorem addressText_ne_nil (address : Pubkey) : addressText address ≠ [] := by
  apply base58_ne_nil
  intro hnil
  have hlength := congrArg List.length hnil
  rw [Vector.length_toList] at hlength
  cases hlength

theorem addressText_injective {a b : Pubkey} (h : addressText a = addressText b) : a = b := by
  apply Vector.toList_inj.mp
  apply base58_injective _ h
  rw [Vector.length_toList, Vector.length_toList]

theorem programLine_address (program : Pubkey) {rest : Line} {c : Char} (hstop : isWord c = false) :
    programLine ("Program ".toList ++ (addressText program ++ c :: rest)) =
      some (addressText program, c :: rest) :=
  programLine_word (isWord_addressText program) (addressText_ne_nil program) hstop

theorem isDigit_decimal (n : ℕ) : ∀ c ∈ decimal n, c.isDigit = true := fun _ h =>
  Nat.isDigit_of_mem_toDigits (by decide) (by decide) h

theorem decimal_ne_nil (n : ℕ) : decimal n ≠ [] := Nat.toDigits_ne_nil

theorem invoked_invokeLine (program : Pubkey) (depth : ℕ) :
    invoked (invokeLine program depth) = some (addressText program) := by
  have hline : programLine (invokeLine program depth) =
      some (addressText program, " invoke [".toList ++ (decimal depth ++ "]".toList)) :=
    programLine_address program rfl
  have hclose : Char.isDigit ']' = false := rfl
  have htake : (decimal depth ++ "]".toList).takeWhile Char.isDigit = decimal depth := by
    rw [List.takeWhile_append_of_pos (isDigit_decimal depth)]
    exact List.append_nil _
  have hdrop : (decimal depth ++ "]".toList).dropWhile Char.isDigit = "]".toList := by
    rw [List.dropWhile_append_of_pos (isDigit_decimal depth)]
    rfl
  unfold invoked
  rw [hline]
  dsimp only
  rw [stripPrefix_append]
  dsimp only
  rw [htake, hdrop, if_pos ⟨decimal_ne_nil depth, rfl⟩]

section Ending

variable (program : Pubkey)

theorem programLine_success : programLine (endLine program .success) =
    some (addressText program, " success".toList) := programLine_address program rfl

theorem programLine_failed (error : Line) : programLine (endLine program (.failed error)) =
    some (addressText program, " failed: ".toList ++ error) := programLine_address program rfl

theorem invoked_endLine (outcome : Outcome) : invoked (endLine program outcome) = none := by
  unfold invoked
  cases outcome with
  | success => rw [programLine_success]; rfl
  | failed error => rw [programLine_failed]; rfl

theorem ended_endLine (outcome : Outcome) : ended (endLine program outcome) = true := by
  unfold ended
  cases outcome with
  | success => rw [programLine_success]; rfl
  | failed error => rw [programLine_failed]; rfl

theorem succeeded_success : succeeded (endLine program .success) = true := by
  unfold succeeded
  rw [programLine_success]
  exact decide_eq_true rfl

theorem failedProgram_success : failedProgram (endLine program .success) = none := by
  unfold failedProgram
  rw [programLine_success]
  rfl

theorem failedProgram_failed (error : Line) :
    failedProgram (endLine program (.failed error)) = some (addressText program) := by
  unfold failedProgram
  rw [programLine_failed]
  rfl

end Ending

structure Quiet (line : Line) : Prop where
  invoked : invoked line = none
  ended : ended line = false
  failed : failedProgram line = none
  succeeded : succeeded line = false

theorem Quiet.of_programLine {line word rest : Line} {c : Char}
    (hline : programLine line = some (word, c :: rest))
    (hinvoke : stripPrefix " invoke [".toList (c :: rest) = none)
    (hsuccess : stripPrefix " success".toList (c :: rest) = none)
    (hfailed : stripPrefix " failed".toList (c :: rest) = none) : Quiet line := by
  constructor
  · unfold Logs.invoked
    rw [hline]
    dsimp only
    rw [hinvoke]
  · unfold Logs.ended
    rw [hline]
    dsimp only
    rw [hsuccess, hfailed]
    rfl
  · unfold failedProgram
    rw [hline]
    dsimp only
    rw [hfailed]
    rfl
  · unfold Logs.succeeded
    rw [hline]
    apply decide_eq_false
    intro hrest
    rw [hrest] at hsuccess
    cases hsuccess

theorem quiet_consumedLine (program : Pubkey) (consumed : ℕ × ℕ) :
    Quiet (consumedLine program consumed) :=
  Quiet.of_programLine (programLine_address program rfl) rfl rfl rfl

/-- Whatever a program logs, its line neither enters a program nor ends one. -/
theorem quiet_entryLine (program : Line) (entry : Entry) : Quiet (entryLine program entry) := by
  have hcolon {word rest : Line} (hword : ∀ c ∈ word, isWord c = true) (hne : word ≠ []) :
      Quiet ("Program ".toList ++ (word ++ ':' :: rest)) :=
    Quiet.of_programLine (programLine_word hword hne rfl) rfl rfl rfl
  cases entry with
  | log message =>
    exact @hcolon "log".toList (' ' :: message) (List.all_eq_true.mp (by decide)) (by decide)
  | data fields =>
    exact @hcolon "data".toList (' ' :: dataText fields) (List.all_eq_true.mp (by decide)) (by decide)
  | returned bytes => exact @hcolon "return".toList _ (List.all_eq_true.mp (by decide)) (by decide)
  | consumption remaining =>
    exact @hcolon "consumption".toList _ (List.all_eq_true.mp (by decide)) (by decide)

theorem stripPrefix_data_consumedLine (program : Pubkey) (consumed : ℕ × ℕ) :
    stripPrefix "Program data: ".toList (consumedLine program consumed) = none := by
  cases hstrip : stripPrefix "Program data: ".toList (consumedLine program consumed) with
  | none => rfl
  | some text =>
    have hdata : programLine ("Program data: ".toList ++ text) = some ("data".toList, ':' :: ' ' :: text) :=
      @programLine_word "data".toList (' ' :: text) ':' (List.all_eq_true.mp (by decide)) (by decide) rfl
    have hconsumed : programLine (consumedLine program consumed) = some (addressText program,
        " consumed ".toList ++ (decimal consumed.1 ++ (" of ".toList ++ (decimal consumed.2 ++
          " compute units".toList)))) := programLine_address program rfl
    rw [eq_append_of_stripPrefix hstrip, hdata] at hconsumed
    have hcolon := congrArg List.head? (Prod.mk.inj (Option.some.inj hconsumed)).2
    cases hcolon

section Events

variable {laterite : Pubkey}

def eventData (laterite : Pubkey) (call : ProgramCall) : Entry → Option (List UInt8)
  | .data fields => if call.program = laterite then some fields.flatten else none
  | _ => none

theorem eventData_of_ne {call : ProgramCall} (h : call.program ≠ laterite) (entry : Entry) :
    eventData laterite call entry = none := by
  cases entry with
  | data fields => exact if_neg h
  | _ => rfl

/-- The data Laterite logged while it was the running program, in order. -/
def lateriteData (laterite : Pubkey) (execution : Execution) : List (List UInt8) :=
  (execution.marks (eventData laterite) none).map Prod.snd

def LogsEvents (laterite : Pubkey) (call : ProgramCall) (body : Execution) : Prop :=
  call.program = laterite → ∀ fields, Entry.data fields ∈ body.own → fields.length = 1

theorem readEvents_quiet {running : List Line} {line : Line} {lines : List Line} (hquiet : Quiet line)
    (hdata : stripPrefix "Program data: ".toList line = none) :
    readEvents (addressText laterite) running (line :: lines) =
      readEvents (addressText laterite) running lines := by
  rw [readEvents, hquiet.invoked, hquiet.ended, hdata]
  rfl

theorem dataText_singleton (field : List UInt8) : dataText [field] = base64 field := by
  unfold dataText
  rw [List.map_singleton, List.intercalate_singleton]

theorem head?_eq_laterite {running : List Line} {current : Option ProgramCall}
    (hrunning : running.head? = current.map fun call => addressText call.program) :
    running.head? = some (addressText laterite) ↔ ∃ call ∈ current, call.program = laterite := by
  rw [hrunning, Option.map_eq_some_iff]
  constructor
  · rintro ⟨call, hcall, htext⟩
    exact ⟨call, hcall, addressText_injective htext⟩
  · rintro ⟨call, hcall, hprogram⟩
    exact ⟨call, hcall, congrArg addressText hprogram⟩

theorem readEvents_entry {running : List Line} {current : Option ProgramCall} {program : Line}
    {entry : Entry} {lines : List Line}
    (hrunning : running.head? = current.map fun call => addressText call.program)
    (hone : ∀ call ∈ current, call.program = laterite → ∀ fields, entry = .data fields →
      fields.length = 1) :
    readEvents (addressText laterite) running (entryLine program entry :: lines) =
      (readEvents (addressText laterite) running lines).map
        ((current.bind fun call => eventData laterite call entry).toList ++ ·) := by
  have hquiet := quiet_entryLine program entry
  have hnone (hdata : stripPrefix "Program data: ".toList (entryLine program entry) = none)
      (hentry : ∀ call, eventData laterite call entry = none) :
      readEvents (addressText laterite) running (entryLine program entry :: lines) =
        (readEvents (addressText laterite) running lines).map
          ((current.bind fun call => eventData laterite call entry).toList ++ ·) := by
    have hbind : (current.bind fun call => eventData laterite call entry) = none := by
      cases current with
      | none => rfl
      | some call => exact hentry call
    rw [readEvents_quiet hquiet hdata, hbind]
    exact Option.map_id'.symm
  cases entry with
  | log message => exact hnone rfl fun _ => rfl
  | returned bytes => exact hnone rfl fun _ => rfl
  | consumption remaining => exact hnone rfl fun _ => rfl
  | data fields =>
    have hdata : stripPrefix "Program data: ".toList (entryLine program (.data fields)) =
        some (dataText fields) := stripPrefix_append _ _
    rw [readEvents, hquiet.invoked, hquiet.ended, hdata]
    dsimp only
    rw [if_neg Bool.false_ne_true]
    by_cases hlaterite : running.head? = some (addressText laterite)
    · rcases (head?_eq_laterite hrunning).mp hlaterite with ⟨call, hcall, hprogram⟩
      rcases List.length_eq_one_iff.mp (hone call hcall hprogram fields rfl) with ⟨field, rfl⟩
      rw [if_pos hlaterite, dataText_singleton, fromBase64_base64, Option.mem_def.mp hcall,
        Option.bind_some, eventData, if_pos hprogram]
      cases readEvents (addressText laterite) running lines with
      | none => rfl
      | some events => simp
    · have hbind : (current.bind fun call => eventData laterite call (.data fields)) = none := by
        cases current with
        | none => rfl
        | some call =>
          have hother : call.program ≠ laterite := fun hprogram =>
            hlaterite ((head?_eq_laterite hrunning).mpr ⟨call, rfl, hprogram⟩)
          rw [Option.bind_some, eventData, if_neg hother]
      rw [if_neg hlaterite, hbind]
      exact Option.map_id'.symm

theorem readEvents_end {running : List Line} {call : ProgramCall} {lines : List Line} :
    readEvents (addressText laterite) (addressText call.program :: running)
        ((call.consumed.map (consumedLine call.program)).toList ++
          endLine call.program call.outcome :: lines) =
      readEvents (addressText laterite) running lines := by
  have hend : readEvents (addressText laterite) (addressText call.program :: running)
      (endLine call.program call.outcome :: lines) =
        readEvents (addressText laterite) running lines := by
    rw [readEvents, invoked_endLine]
    dsimp only
    rw [if_pos (ended_endLine ..), List.tail_cons]
  cases call.consumed with
  | none => exact hend
  | some consumed =>
    exact (readEvents_quiet (quiet_consumedLine _ consumed)
      (stripPrefix_data_consumedLine _ consumed)).trans hend

theorem readEvents_render {running : List Line} {current : Option ProgramCall} {program : Line}
    {depth : ℕ} {t : Execution} {lines : List Line}
    (hrunning : running.head? = current.map fun call => addressText call.program)
    (hone : ∀ call ∈ current, LogsEvents laterite call t) (heach : t.Each (LogsEvents laterite)) :
    readEvents (addressText laterite) running (render program depth t ++ lines) =
      (readEvents (addressText laterite) running lines).map
        ((t.marks (eventData laterite) current).map Prod.snd ++ ·) := by
  induction t generalizing running current program depth lines with
  | nothing => exact Option.map_id'.symm
  | logs entry rest ih =>
    have hrest := @ih running current program depth lines hrunning
      (fun call hcall hprogram fields hfields =>
        hone call hcall hprogram fields (List.mem_cons_of_mem _ hfields)) heach
    have hentry := @readEvents_entry laterite running current program entry
      (render program depth rest ++ lines) hrunning
      (fun call hcall hprogram fields hfields =>
        hone call hcall hprogram fields (hfields ▸ List.mem_cons_self ..))
    have hmarks : ((Trace.logs entry rest).marks (eventData laterite) current).map Prod.snd =
        (current.bind fun call => eventData laterite call entry).toList ++
          (rest.marks (eventData laterite) current).map Prod.snd := by
      rw [Trace.marks, List.map_append]
      congr 1
      cases current with
      | none => rfl
      | some call =>
        rw [Option.bind_some, Option.bind_some]
        cases eventData laterite call entry with
        | none => rfl
        | some data => rfl
    rw [hmarks]
    refine (hentry.trans (congrArg _ hrest)).trans ?_
    rw [Option.map_map]
    congr 1
    funext later
    exact (List.append_assoc ..).symm
  | calls call body rest ihbody ihrest =>
    rcases heach with ⟨hcall, hbodies, hrests⟩
    have hbody := @ihbody (addressText call.program :: running) (some call) (addressText call.program)
      (depth + 1) ((call.consumed.map (consumedLine call.program)).toList ++
        endLine call.program call.outcome :: (render program depth rest ++ lines)) rfl
      (fun other hother => by cases hother; exact hcall) hbodies
    have hrest := @ihrest running current program depth lines hrunning hone hrests
    have hlines : render program depth (.calls call body rest) ++ lines =
        invokeLine call.program depth :: (render (addressText call.program) (depth + 1) body ++
          ((call.consumed.map (consumedLine call.program)).toList ++
            endLine call.program call.outcome :: (render program depth rest ++ lines))) := by
      simp only [render, List.cons_append, List.append_assoc, List.nil_append]
    have hmarks : ((Trace.calls call body rest).marks (eventData laterite) current).map Prod.snd =
        (body.marks (eventData laterite) (some call)).map Prod.snd ++
          (rest.marks (eventData laterite) current).map Prod.snd := by
      rw [Trace.marks, List.map_append]
    rw [hlines, hmarks, readEvents, invoked_invokeLine]
    dsimp only
    rw [hbody, readEvents_end, hrest, Option.map_map]
    congr 1
    funext later
    exact (List.append_assoc ..).symm

theorem getLateriteLogEvents_eq {execution : Execution} (h : execution.Each (LogsEvents laterite)) :
    getLateriteLogEvents (addressText laterite) (logLines execution) =
      some (lateriteData laterite execution) := by
  have hread := @readEvents_render laterite [] none [] 1 execution [] rfl (fun _ hnone => nomatch hnone) h
  rw [List.append_nil, readEvents, Option.map_some, List.append_nil] at hread
  exact hread

/-- The line the runtime writes where it stops logging. -/
def truncatedLine : Line := "Log truncated".toList

/-- A log that was cut: its first lines, with or without the line that says so. -/
inductive Cut (lines : List Line) : List Line → Prop
  | silent (count : ℕ) : Cut lines (lines.take count)
  | marked (count : ℕ) : Cut lines (lines.take count ++ [truncatedLine])

theorem readEvents_append {running : List Line} {lines later : List Line}
    {events : List (List UInt8)}
    (h : readEvents (addressText laterite) running (lines ++ later) = some events) :
    ∃ read, (readEvents (addressText laterite) running lines = some read ∧
      readEvents (addressText laterite) running (lines ++ [truncatedLine]) = some read) ∧
      read <+: events := by
  induction lines generalizing running events with
  | nil => exact ⟨[], ⟨rfl, rfl⟩, List.nil_prefix⟩
  | cons line lines ih =>
    rw [List.cons_append, readEvents] at h ⊢
    rw [readEvents]
    split at h
    case h_1 => exact ih h
    case h_2 =>
      by_cases hended : ended line = true
      · rw [if_pos hended] at h ⊢
        rw [if_pos hended]
        exact ih h
      · rw [if_neg hended] at h ⊢
        rw [if_neg hended]
        split at h
        case h_1 => exact ih h
        case h_2 text _ =>
          by_cases hrunning : running.head? = some (addressText laterite)
          · rw [if_pos hrunning] at h
            rcases Option.bind_eq_some_iff.mp h with ⟨event, hevent, h⟩
            rcases Option.bind_eq_some_iff.mp h with ⟨events, hevents, h⟩
            rcases ih hevents with ⟨read, ⟨hread, hmarked⟩, hstart⟩
            cases h
            refine ⟨event :: read, ⟨?_, ?_⟩, List.cons_prefix_cons.mpr ⟨rfl, hstart⟩⟩
            · rw [if_pos hrunning, hevent, hread]
              rfl
            · rw [if_pos hrunning, hevent, hmarked]
              rfl
          · rw [if_neg hrunning] at h ⊢
            rw [if_neg hrunning]
            exact ih h

theorem getLateriteLogEvents_cut {execution : Execution} (h : execution.Each (LogsEvents laterite))
    {lines : List Line} (hcut : Cut (logLines execution) lines) :
    ∃ read, getLateriteLogEvents (addressText laterite) lines = some read ∧
      read <+: lateriteData laterite execution := by
  have hcount (count : ℕ) := readEvents_append ((List.take_append_drop count (logLines execution)).symm ▸
    getLateriteLogEvents_eq h)
  cases hcut with
  | silent count =>
    rcases hcount count with ⟨read, ⟨hread, -⟩, hstart⟩
    exact ⟨read, hread, hstart⟩
  | marked count =>
    rcases hcount count with ⟨read, ⟨-, hread⟩, hstart⟩
    exact ⟨read, hread, hstart⟩

end Events

section Failures

def Outcome.isFailed : Outcome → Bool
  | .success => false
  | .failed _ => true

/-- The first call to fail, after the calls it was made in, outermost first. -/
def failing : Execution → Option (List ProgramCall)
  | .nothing => none
  | .logs _ rest => failing rest
  | .calls call body rest =>
    match failing body with
    | some chain => some (call :: chain)
    | none => if call.outcome.isFailed then some [call] else failing rest

theorem failingStack_quiet {stack : List Line} {line : Line} {lines : List Line} (h : Quiet line) :
    failingStack stack (line :: lines) = failingStack stack lines := by
  rw [failingStack, h.invoked]
  dsimp only
  rw [h.failed, h.succeeded, if_neg (fun hfailed => Bool.false_ne_true hfailed.1),
    if_neg Bool.false_ne_true]

/-- A program that fails is the one named; one that succeeds runs no longer. -/
theorem failingStack_end {stack : List Line} {call : ProgramCall} {lines : List Line} :
    failingStack (addressText call.program :: stack)
        ((call.consumed.map (consumedLine call.program)).toList ++
          endLine call.program call.outcome :: lines) =
      if call.outcome.isFailed then addressText call.program :: stack else failingStack stack lines := by
  have hend : failingStack (addressText call.program :: stack)
      (endLine call.program call.outcome :: lines) =
        if call.outcome.isFailed then addressText call.program :: stack
          else failingStack stack lines := by
    rw [failingStack, invoked_endLine]
    dsimp only
    cases call.outcome with
    | success =>
      rw [failedProgram_success, succeeded_success, if_neg (fun hfailed => Bool.false_ne_true hfailed.1)]
      rfl
    | failed error =>
      rw [failedProgram_failed, if_pos ⟨rfl, rfl⟩]
      rfl
  cases call.consumed with
  | none => exact hend
  | some consumed => exact (failingStack_quiet (quiet_consumedLine _ consumed)).trans hend

def programs (chain : List ProgramCall) : List Line := chain.map fun call => addressText call.program

theorem failingStack_render {stack : List Line} {program : Line} {depth : ℕ} {t : Execution}
    {lines : List Line} :
    failingStack stack (render program depth t ++ lines) =
      match failing t with
      | some chain => (programs chain).reverse ++ stack
      | none => failingStack stack lines := by
  induction t generalizing stack program depth lines with
  | nothing => rfl
  | logs entry rest ih => exact (failingStack_quiet (quiet_entryLine program entry)).trans ih
  | calls call body rest ihbody ihrest =>
    have hlines : render program depth (.calls call body rest) ++ lines =
        invokeLine call.program depth :: (render (addressText call.program) (depth + 1) body ++
          ((call.consumed.map (consumedLine call.program)).toList ++
            endLine call.program call.outcome :: (render program depth rest ++ lines))) := by
      simp only [render, List.cons_append, List.append_assoc, List.nil_append]
    rw [hlines, failingStack, invoked_invokeLine]
    dsimp only
    rw [ihbody, failingStack_end, failing]
    cases failing body with
    | some chain =>
      have hcall : programs (call :: chain) = addressText call.program :: programs chain := rfl
      dsimp only
      rw [hcall, List.reverse_cons, List.append_assoc]
      rfl
    | none =>
      dsimp only
      by_cases hfailed : call.outcome.isFailed = true
      · rw [if_pos hfailed, if_pos hfailed]
        rfl
      · rw [if_neg hfailed, if_neg hfailed]
        exact ihrest

/-- The programs from the top level to the one that failed first; none when none failed. -/
theorem failingInvocation_eq (execution : Execution) :
    failingInvocation (logLines execution) = programs ((failing execution).getD []) := by
  have hstack := @failingStack_render [] [] 1 execution []
  rw [List.append_nil] at hstack
  unfold failingInvocation logLines
  rw [hstack]
  cases failing execution with
  | none => rfl
  | some chain => exact (congrArg List.reverse (List.append_nil _)).trans (List.reverse_reverse _)

end Failures

end Laterite.Logs
