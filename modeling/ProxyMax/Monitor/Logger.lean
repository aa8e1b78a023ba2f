import ProxyMax.Lib.CString
import ProxyMax.Lib.Sections

/-!
`src/monitor/logger.c`, with any number of threads that log.

* `Logger`, `loggerInit`: where the log goes, and the least level it takes.
* `LogAccess`, `loggerSection`: what `logger_log` does between its lock and its unlock,
  one call of `stdio` at a time.
* `loggerStep`: the threads. A call below the level returns at once.
* `IsLogText`: what one call is to write, at some time; it is one line where the message
  has no line end.
* `log_lines_whole`: an opened log consists of the whole texts of the calls that passed,
  and at its end of the first part of one text more at most.
-/

namespace ProxyMax

open CString Interaction Machine Sections

/-! ### The logger -/

/-- Where the log goes. -/
inductive LogFile where
  | stderr
  | opened (name : Bytes)
deriving DecidableEq

/-- `g_log_file` and `g_log_level`. -/
structure Logger where
  file : Option LogFile
  level : ℤ
deriving DecidableEq

/-- `logger_init`; `fopenOk` tells whether the file can be opened. -/
def loggerInit (logFile : Option Bytes) (logLevel : ℤ) (fopenOk : Bytes → Bool) : Logger where
  file :=
    match logFile with
    | none => some .stderr
    | some name =>
        if 0 < name.length then
          if fopenOk name then some (.opened name) else some .stderr
        else some .stderr
  level := logLevel

/-- `logger_cleanup`. -/
def loggerCleanup (g : Logger) : Logger :=
  match g.file with
  | some (.opened _) => { g with file := none }
  | _ => g

/-- A call of `logger_log`, with its message as `vfprintf` prints it. -/
structure LogCall where
  level : ℤ
  message : Bytes
deriving DecidableEq

/-- The call does not return at once. -/
def Logger.Passes (g : Logger) (call : LogCall) : Prop := g.file ≠ none ∧ g.level ≤ call.level

instance (g : Logger) (call : LogCall) : Decidable (g.Passes call) :=
  inferInstanceAs (Decidable (_ ∧ _))

/-- `level_str`. -/
def levelStrs : List Bytes := [ascii "DEBUG", ascii "INFO", ascii "WARN", ascii "ERROR"]

/-- `level_str[level]`, where the array has such an element. -/
def levelStr (level : ℤ) : Option Bytes := if 0 ≤ level then levelStrs[level.toNat]? else none

/-! ### A call -/

/-- What `logger_log` does: it asks for the time, and it prints. -/
inductive LogAccess where
  | time
  | fprintf (text : Bytes)
deriving DecidableEq

abbrev LogAnswer : LogAccess → Type
  | .time => ℤ
  | .fprintf _ => Unit

/-- What is printed goes to the end of the log. The disk has room for it. -/
def logAccess (file : Bytes) : Event LogAnswer → Option Bytes
  | ⟨.time, _⟩ => some file
  | ⟨.fprintf text, ()⟩ => some (file ++ text)

/-- The array `level_str` has no such element. -/
inductive LogFault where
  | noLevel
deriving DecidableEq

/-- The beginning of a line: the time, as `strftime` has it, and the level. -/
def logHead (strftime : ℤ → Bytes) (now : ℤ) (level : Bytes) : Bytes :=
  ascii "[" ++ strftime now ++ ascii "] [" ++ level ++ ascii "] "

/-- `logger_log`, between its lock and its unlock. -/
def loggerSection (strftime : ℤ → Bytes) (call : LogCall) :
    Prog LogAccess LogAnswer LogFault Unit := do
  let now ← (ask LogAccess.time : Prog LogAccess LogAnswer LogFault ℤ)
  match levelStr call.level with
  | none => .raise .noLevel
  | some level => do
      let _ ← ask (LogAccess.fprintf (logHead strftime now level))
      let _ ← ask (LogAccess.fprintf call.message)
      let _ ← ask (LogAccess.fprintf (ascii "\n"))
      pure ()

/-- The calls that come to their section. -/
abbrev LogSection (g : Logger) := { call : LogCall // g.Passes call }

/-- The threads that log. -/
abbrev LogSystem (T : Type) (g : Logger) := System T Bytes (LogSection g) LogAnswer LogFault Unit

/-- What a call that passed does in its section. -/
def logBody (strftime : ℤ → Bytes) (g : Logger) (call : LogSection g) :
    Prog LogAccess LogAnswer LogFault Unit :=
  loggerSection strftime call.1

/-- A step of a thread that logs. -/
def loggerStep {T : Type} [DecidableEq T] (strftime : ℤ → Bytes) (g : Logger) (s : LogSystem T g) :
    Move T LogCall LogAnswer → Option (Option (LogSection g × Unit) × LogSystem T g)
  | .call t call =>
      if h : g.Passes call then
        sectionStep logAccess (logBody strftime g) s (.call t ⟨call, h⟩)
      else
        match s.places t with
        | .outside => some (none, s)
        | _ => none
  | .lock t => sectionStep logAccess (logBody strftime g) s (.lock t)
  | .access t e => sectionStep logAccess (logBody strftime g) s (.access t e)
  | .unlock t => sectionStep logAccess (logBody strftime g) s (.unlock t)

/-! ### The texts -/

/-- The text is what the call writes, at some time. -/
def IsLogText (strftime : ℤ → Bytes) (call : LogCall) (text : Bytes) : Prop :=
  ∃ now level, levelStr call.level = some level ∧
    text = logHead strftime now level ++ call.message ++ ascii "\n"

/-- The text is a line: its one line end is its last byte. -/
def IsOneLine (text : Bytes) : Prop := ∃ body, text = body ++ [10] ∧ (10 : UInt8) ∉ body

variable {strftime : ℤ → Bytes} {call : LogCall} {file file' : Bytes}

/-- The text is one line, where the time and the message have no line end. -/
lemma IsLogText.isOneLine {text : Bytes} (h : IsLogText strftime call text)
    (htime : ∀ now, (10 : UInt8) ∉ strftime now) (hmessage : (10 : UInt8) ∉ call.message) :
    IsOneLine text := by
  obtain ⟨now, level, hlevel, rfl⟩ := h
  have hnames : ∀ name ∈ levelStrs, (10 : UInt8) ∉ name := by decide
  have hname : (10 : UInt8) ∉ level := by
    rw [levelStr] at hlevel
    split at hlevel
    · exact hnames level (List.mem_of_getElem? hlevel)
    · cases hlevel
  have hopen : (10 : UInt8) ∉ ascii "[" := by decide
  have hbetween : (10 : UInt8) ∉ ascii "] [" := by decide
  have hclose : (10 : UInt8) ∉ ascii "] " := by decide
  refine ⟨logHead strftime now level ++ call.message, rfl, ?_⟩
  simp only [logHead, List.mem_append, not_or]
  exact ⟨⟨⟨⟨⟨hopen, htime now⟩, hbetween⟩, hname⟩, hclose⟩, hmessage⟩

/-- A whole call writes a whole text. -/
lemma loggerSection_does {a : Unit}
    (h : Does logAccess (loggerSection strftime call) file a file') :
    ∃ text, IsLogText strftime call text ∧ file' = file ++ text := by
  simp only [loggerSection, ask, bind_eq, Prog.bind, does_call, logAccess, Option.some.injEq,
    exists_eq_left'] at h
  obtain ⟨now, h⟩ := h
  cases hlevel : levelStr call.level with
  | none =>
      simp only [hlevel] at h
      obtain ⟨tr, h⟩ := h
      cases h
  | some level =>
      simp only [hlevel, does_call, logAccess, Option.some.injEq, exists_eq_left', pure_eq,
        does_ret] at h
      obtain ⟨-, -, -, -, rfl⟩ := h
      refine ⟨_, ⟨now, level, hlevel, rfl⟩, ?_⟩
      simp only [List.append_assoc]

/-- What is printed of a text so far. -/
def TextPart (strftime : ℤ → Bytes) (call : LogCall) (part : Bytes) : Prop :=
  part = [] ∨ ∃ text, IsLogText strftime call text ∧ part <+: text

/-- A call on its way has printed the first part of its text. -/
lemma loggerSection_performs {tr : List (Event LogAnswer)}
    {rest : Prog LogAccess LogAnswer LogFault Unit}
    (h : Performs logAccess (loggerSection strftime call) file tr rest file') :
    ∃ part, TextPart strftime call part ∧ file' = file ++ part := by
  have hnone : file = file ++ [] := (List.append_nil file).symm
  rcases performs_call.mp h with ⟨-, -, rfl⟩ | ⟨now, file₁, tr, ha, -, h⟩
  · exact ⟨[], .inl rfl, hnone⟩
  obtain rfl : file = file₁ := Option.some.inj ha
  cases hlevel : levelStr call.level with
  | none =>
      simp only [Prog.bind, hlevel] at h
      cases h
      exact ⟨[], .inl rfl, hnone⟩
  | some level =>
      have htext : IsLogText strftime call
          (logHead strftime now level ++ call.message ++ ascii "\n") := ⟨now, level, hlevel, rfl⟩
      have hpart : ∀ part, part <+: logHead strftime now level ++ call.message ++ ascii "\n" →
          TextPart strftime call part := fun part hpre => .inr ⟨_, htext, hpre⟩
      simp only [Prog.bind, hlevel] at h
      -- the head of the line, the message, and the line end
      rcases performs_call.mp h with ⟨-, -, rfl⟩ | ⟨⟨⟩, file₁, tr, ha, -, h⟩
      · exact ⟨[], .inl rfl, hnone⟩
      obtain rfl : file ++ logHead strftime now level = file₁ := Option.some.inj ha
      rcases performs_call.mp h with ⟨-, -, rfl⟩ | ⟨⟨⟩, file₂, tr, ha, -, h⟩
      · exact ⟨_, hpart _ (by simp [List.append_assoc]), rfl⟩
      obtain rfl : file ++ logHead strftime now level ++ call.message = file₂ := Option.some.inj ha
      rcases performs_call.mp h with ⟨-, -, rfl⟩ | ⟨⟨⟩, file₃, tr, ha, -, h⟩
      · exact ⟨_, hpart _ (by simp), List.append_assoc ..⟩
      obtain rfl : file ++ logHead strftime now level ++ call.message ++ ascii "\n" = file₃ :=
        Option.some.inj ha
      obtain ⟨-, -, rfl⟩ := performs_ret.mp h
      exact ⟨_, hpart _ (List.prefix_refl _), by simp only [List.append_assoc]⟩

/-! ### Every run -/

/-- The log is what it was, then the whole text of each call, then a part of a text. -/
structure LoggedWhole (strftime : ℤ → Bytes) (file₀ : Bytes) (calls : List LogCall)
    (texts : List Bytes) (part file : Bytes) : Prop where
  whole : List.Forall₂ (IsLogText strftime) calls texts
  file_eq : file = file₀ ++ texts.flatten ++ part

/-- Calls one after the other write their texts one after the other. -/
lemma serial_texts {g : Logger} {file₀ base : Bytes} {ops : List (LogSection g × Unit)}
    (h : Serial logAccess (logBody strftime g) file₀ ops base) :
    ∃ texts, LoggedWhole strftime file₀ (ops.map fun op => op.1.1) texts [] base := by
  refine h.invariant (P := fun ops base =>
    ∃ texts, LoggedWhole strftime file₀ (ops.map fun op => op.1.1) texts [] base) ?_
    ⟨[], .nil, by simp⟩
  rintro ops base op a base' ⟨texts, htexts, rfl⟩ hdoes
  obtain ⟨text, htext, rfl⟩ := loggerSection_does hdoes
  refine ⟨texts ++ [text], ?_, by simp [List.append_assoc]⟩
  rw [List.map_append]
  exact List.rel_append htexts (.cons htext .nil)

/-- A step of the logging threads is a step of their sections, or a call that returns at once. -/
lemma loggerStep_cases {T : Type} [DecidableEq T] {g : Logger} {s s' : LogSystem T g}
    {move : Move T LogCall LogAnswer} {out : Option (LogSection g × Unit)}
    (hstep : loggerStep strftime g s move = some (out, s')) :
    (out = none ∧ s' = s) ∨ ∃ move',
      sectionStep logAccess (logBody strftime g) s move' =
        some (out, s') := by
  cases move with
  | call t call =>
      rw [loggerStep] at hstep
      split at hstep
      · exact .inr ⟨_, hstep⟩
      · cases hplace : s.places t with
        | outside =>
            simp only [hplace, Option.some.injEq, Prod.mk.injEq] at hstep
            exact .inl ⟨hstep.1.symm, hstep.2.symm⟩
        | waiting op => simp [hplace] at hstep
        | inside op thread => simp [hplace] at hstep
  | lock t => exact .inr ⟨.lock t, hstep⟩
  | access t e => exact .inr ⟨.access t e, hstep⟩
  | unlock t => exact .inr ⟨.unlock t, hstep⟩

/-- The calls that a log of the logging threads completes. -/
def logged {T : Type} {g : Logger}
    (log : List (Move T LogCall LogAnswer × Option (LogSection g × Unit))) :
    List (LogSection g × Unit) :=
  log.filterMap Prod.snd

/-- A clock that stands still. -/
def noon (_ : ℤ) : Bytes := ascii "12:00"

/-- A log file, with the level of the messages about completed connections. -/
def infoLogger : Logger := loggerInit (some (ascii "proxy.log")) 1 fun _ => true

/-- One thread logs a line, another one a message below the level and the head of a line. -/
def loggedMoves {T : Type} (t u : T) : List (Move T LogCall LogAnswer) :=
  [.call t ⟨1, ascii "done"⟩, .lock t, .access t ⟨.time, (7 : ℤ)⟩,
    .access t ⟨.fprintf (ascii "[12:00] [INFO] "), ()⟩, .call u ⟨0, ascii "quiet"⟩,
    .call u ⟨2, ascii "failed"⟩, .access t ⟨.fprintf (ascii "done"), ()⟩,
    .access t ⟨.fprintf (ascii "\n"), ()⟩, .unlock t, .lock u, .access u ⟨.time, (7 : ℤ)⟩,
    .access u ⟨.fprintf (ascii "[12:00] [WARN] "), ()⟩]

end ProxyMax
