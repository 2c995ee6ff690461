import ProbeLoader.Host
import ProbeLoader.Log.Console

/-!
# Texts with an open place

A template is a text in which a place is left open, once, several times or not at all; filling it
puts the same name in wherever the place is. What a run shows and what a console makes of a log can
be open in the same way: they are filled event by event and record by record.
-/

namespace ProbeLoader

/-- A text in parts, of which `none` is the open place. -/
structure Template where
  parts : List (Option String)

namespace Template

def fill (t : Template) (name : String) : String :=
  String.join (t.parts.map fun part => part.getD name)

def text (s : String) : Template := ⟨[some s]⟩

def place : Template := ⟨[none]⟩

def join (ts : List Template) : Template := ⟨ts.flatMap parts⟩

instance : Append Template where
  append t u := ⟨t.parts ++ u.parts⟩

variable (name : String)

@[simp] theorem fill_text (s : String) : (text s).fill name = s := by
  simp [fill, text]

@[simp] theorem fill_place : place.fill name = name := by
  simp [fill, place]

@[simp] theorem fill_append (t u : Template) : (t ++ u).fill name = t.fill name ++ u.fill name := by
  change String.join ((t.parts ++ u.parts).map _) = _
  rw [List.map_append, String.join_append]
  rfl

theorem fill_join (ts : List Template) :
    (join ts).fill name = String.join (ts.map fun t => t.fill name) := by
  induction ts with
  | nil => rfl
  | cons t ts ih =>
    have hcons : join (t :: ts) = t ++ join ts := rfl
    rw [hcons, fill_append, ih, List.map_cons, String.join_cons]

/-- The same result, with the message of an error told by a template. -/
inductive Tells {ε α : Type} (message : ε → String) (name : String) :
    Except Template α → Except ε α → Prop where
  | ok (value : α) : Tells message name (.ok value) (.ok value)
  | error {t : Template} {e : ε} : message e = t.fill name →
      Tells message name (.error t) (.error e)

theorem exists_tells {ε α : Type} (message : ε → String) (r : Except ε α) :
    ∃ t, ∀ name, Tells message name t r := by
  cases r with
  | ok value => exact ⟨.ok value, fun _ => .ok value⟩
  | error e => exact ⟨.error (.text (message e)), fun name => .error (fill_text name _).symm⟩

end Template

namespace Log

structure RecordTemplate where
  level : Level
  target : String
  message : Template

def RecordTemplate.fill (r : RecordTemplate) (name : String) : Record :=
  ⟨r.level, r.target, r.message.fill name⟩

namespace Console

variable (c : Console) (time : String)

def messageTemplate (r : RecordTemplate) : Template :=
  if r.target = libraryTarget then .text (libraryTarget ++ ": ") ++ r.message
  else r.message ++ .text "\n"

theorem messagePart_fill (r : RecordTemplate) (name : String) :
    messagePart (r.fill name) = (messageTemplate r).fill name := by
  unfold messagePart messageTemplate RecordTemplate.fill
  dsimp only
  split <;> simp

/-- What one record writes, with the place of its message left open. -/
def pieceTemplate (r : RecordTemplate) : Template :=
  if c.enabled r.level then
    .text ((if c.showsTime then time ++ " " else "") ++
      (if c.showsLevel r.level then c.levelPart r.level else "")) ++ messageTemplate r
  else .text ""

theorem piece_fill (r : RecordTemplate) (name : String) :
    c.piece time (r.fill name) = (c.pieceTemplate time r).fill name := by
  have hlevel : (r.fill name).level = r.level := rfl
  unfold piece pieceTemplate
  rw [hlevel, messagePart_fill]
  split
  · rw [Template.fill_append, Template.fill_text]
  · rw [Template.fill_text]

def renderTemplate (rs : List RecordTemplate) : Template :=
  .join (rs.map (c.pieceTemplate time))

theorem render_fill (rs : List RecordTemplate) (name : String) :
    c.render time (rs.map fun r => r.fill name) = (c.renderTemplate time rs).fill name := by
  unfold render renderTemplate
  rw [Template.fill_join, List.map_map, List.map_map]
  congr 2
  funext r
  exact c.piece_fill time r name

end Console

end Log

inductive EventTemplate where
  | call (c : Call)
  | say (line : Template)
  | log (r : Log.RecordTemplate)

namespace EventTemplate

def fill (name : String) : EventTemplate → Event
  | .call c => .call c
  | .say line => .say (line.fill name)
  | .log r => .log (r.fill name)

/-- An event that shows no name. -/
def ofEvent : Event → EventTemplate
  | .call c => .call c
  | .say line => .say (.text line)
  | .log r => .log ⟨r.level, r.target, .text r.message⟩

@[simp] theorem fill_ofEvent (name : String) (e : Event) : (ofEvent e).fill name = e := by
  cases e with
  | call c => rfl
  | say line => simp [ofEvent, fill]
  | log r => simp [ofEvent, fill, Log.RecordTemplate.fill]

def call? : EventTemplate → Option Call
  | .call c => some c
  | _ => none

def line? : EventTemplate → Option Template
  | .say line => some line
  | _ => none

def record? : EventTemplate → Option Log.RecordTemplate
  | .log r => some r
  | _ => none

end EventTemplate

abbrev TraceTemplate := List EventTemplate

namespace TraceTemplate

def fill (t : TraceTemplate) (name : String) : Trace := t.map (EventTemplate.fill name)

def ofTrace (t : Trace) : TraceTemplate := t.map EventTemplate.ofEvent

variable (name : String)

@[simp] theorem fill_ofTrace (t : Trace) : (ofTrace t).fill name = t := by
  unfold fill ofTrace
  rw [List.map_map]
  apply (List.map_congr_left ?_).trans (List.map_id t)
  intro e _
  exact EventTemplate.fill_ofEvent name e

@[simp] theorem fill_append (t u : TraceTemplate) :
    fill (t ++ u) name = fill t name ++ fill u name :=
  List.map_append

def calls (t : TraceTemplate) : List Call := t.filterMap EventTemplate.call?

def output (t : TraceTemplate) : Template :=
  .join ((t.filterMap EventTemplate.line?).map fun line => line ++ .text "\n")

def records (t : TraceTemplate) : List Log.RecordTemplate := t.filterMap EventTemplate.record?

theorem calls_fill (t : TraceTemplate) : (t.fill name).calls = t.calls := by
  unfold fill Trace.calls calls
  rw [List.filterMap_map]
  congr 1
  funext e
  cases e <;> rfl

theorem output_fill (t : TraceTemplate) : (t.fill name).output = t.output.fill name := by
  have hlines : (t.fill name).lines =
      (t.filterMap EventTemplate.line?).map fun line => line.fill name := by
    unfold fill Trace.lines
    rw [List.filterMap_map, List.map_filterMap]
    congr 1
    funext e
    cases e <;> rfl
  unfold Trace.output output
  rw [hlines, Template.fill_join, List.map_map, List.map_map]
  congr 2
  funext line
  simp

theorem records_fill (t : TraceTemplate) :
    (t.fill name).records = t.records.map fun r => r.fill name := by
  unfold fill Trace.records records
  rw [List.filterMap_map, List.map_filterMap]
  congr 1
  funext e
  cases e <;> rfl

end TraceTemplate

end ProbeLoader
