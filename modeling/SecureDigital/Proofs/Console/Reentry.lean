import SecureDigital.Proofs.Console.Install

/-!
# Sinks that log

A sink may call the console before it prints the line it was handed, and what it does is up to it. A `Turn` is a call with
whatever the sink does on the way, so a list of turns is any course of calls, and `takes` plays it: it gives the console
that results and the acts that were done, in the order of time.

`Settings` are what a record meets, told from the acts before it alone. A record that passes the filter leads to the acts
`Settings.passing`, a stamp drawn and the line handed to the sink, then what the sink does, then the line printed. All
acts of all courses are of this kind (`Orderly`), so what a sink logs on the way is stamped later than the record it was
handed and printed before it (`records_reach_sink`).
-/

namespace SecureDigital.Console

/-! ### Courses of calls -/

/-- What is done to a console. A source of stamps may move on by itself, to any stamp: after a `tick` it is at `next`. -/
inductive Turn
  | install (sink : Sink)
  | setFilter (filter : Filter)
  | setTicker (ticker : Ticker)
  | tick (next : UInt64)
  /-- If the record is handed to a sink, the sink does `inside` before it prints the line. What it does once the line is
  printed are turns like any other after this one. -/
  | record (r : Record) (inside : List Turn)

inductive Act
  | called (call : Call)
  | ticked (next : UInt64)
  | drawn (stamp : UInt64)
  | handed (sink : Sink) (text : String)
  | printed (sink : Sink) (text : String)

namespace Act

def isChange : Act → Bool
  | called (.record _) => false
  | called _ | ticked _ => true
  | drawn _ | handed .. | printed .. => false

/-- Whether it is the console that does it. -/
def isAnswer : Act → Bool
  | drawn _ | handed .. => true
  | called _ | ticked _ | printed .. => false

def handed? : Act → Option String
  | handed sink text => some (sink.mark ++ text)
  | _ => none

def printed? : Act → Option String
  | printed sink text => some (sink.mark ++ text)
  | _ => none

theorem not_isAnswer_of_isChange {a : Act} (h : a.isChange) : ¬ a.isAnswer := by
  cases a with
  | drawn | handed => cases h
  | called | ticked | printed => exact nofun

theorem printed?_of_isChange {a : Act} (h : a.isChange) : a.printed? = none := by
  cases a with
  | printed => cases h
  | called | ticked | drawn | handed => rfl

theorem handed?_of_isChange {a : Act} (h : a.isChange) : a.handed? = none := by
  cases a with
  | handed => cases h
  | called | ticked | drawn | printed => rfl

end Act

def tick (c : Console) (next : UInt64) : Console :=
  { c with ticker := c.ticker.map fun t => { t with next := next } }

def drawing : Option Ticker → List Act
  | none => []
  | some t => [.drawn t.next]

mutual

/-- The console after a turn, and what was done. -/
def take : Console → Turn → Console × List Act
  | c, .install sink => ((c.install sink).2, [.called (.install sink)])
  | c, .setFilter filter => (c.setFilter filter, [.called (.setFilter filter)])
  | c, .setTicker ticker => (c.setTicker ticker, [.called (.setTicker ticker)])
  | c, .tick next => (c.tick next, [.ticked next])
  | c, .record r inside =>
    match c.sink with
    | none => (c, [.called (.record r)])
    | some sink =>
      if c.enabled r.level then
        let text := line c.draw.1 r
        let inner := takes c.draw.2 inside
        (inner.1.print (sink.mark ++ text), .called (.record r) ::
          (drawing c.ticker ++ [.handed sink text] ++ inner.2 ++ [.printed sink text]))
      else (c, [.called (.record r)])

def takes : Console → List Turn → Console × List Act
  | c, [] => (c, [])
  | c, turn :: turns =>
    let first := take c turn
    let rest := takes first.1 turns
    (rest.1, first.2 ++ rest.2)

end

/-! ### What a record meets -/

structure Settings where
  sink : Sink
  filter : Filter
  ticker : Option Ticker

namespace Settings

/-- The latest call of each kind counts, and a stamp that is drawn moves its source on. -/
def after (s : Settings) : Act → Settings
  | .called (.install sink) => { s with sink := sink }
  | .called (.setFilter filter) => { s with filter := filter }
  | .called (.setTicker ticker) => { s with ticker := some ticker }
  | .ticked next => { s with ticker := s.ticker.map fun t => { t with next := next } }
  | .drawn stamp => { s with ticker := s.ticker.map fun t => { t with next := stamp + t.step } }
  | .called (.record _) | .handed .. | .printed .. => s

def afterAll (s : Settings) (acts : List Act) : Settings := acts.foldl after s

/-- The stamp of the next record, 0 without a source. -/
def stamp (s : Settings) : UInt64 :=
  match s.ticker with
  | none => 0
  | some t => t.next

def text (s : Settings) (r : Record) : String := line s.stamp r

/-- What the console does about a record that passes. -/
def opening (s : Settings) (r : Record) : List Act := drawing s.ticker ++ [.handed s.sink (s.text r)]

/-- What follows on a record that passes, where `inside` is done by its sink on the way. -/
def passing (s : Settings) (r : Record) (inside : List Act) : List Act :=
  s.opening r ++ inside ++ [.printed s.sink (s.text r)]

/-- The installed console with these settings. -/
def console (s : Settings) (lines : List String) : Console := ⟨true, some s.sink, s.ticker, s.filter, lines⟩

variable {s : Settings}

@[simp] theorem afterAll_nil (s : Settings) : s.afterAll [] = s := rfl

@[simp] theorem afterAll_cons (s : Settings) (a : Act) (acts : List Act) :
    s.afterAll (a :: acts) = (s.after a).afterAll acts := rfl

@[simp] theorem afterAll_append (s : Settings) (acts more : List Act) :
    s.afterAll (acts ++ more) = (s.afterAll acts).afterAll more := List.foldl_append

theorem draw_console (s : Settings) (r : Record) (lines : List String) :
    (s.console lines).draw = (s.stamp, (s.afterAll (s.opening r)).console lines) := by
  obtain ⟨sink, filter, _ | ticker⟩ := s <;> rfl

theorem afterAll_passing (s : Settings) (r : Record) (inside : List Act) :
    s.afterAll (s.passing r inside) = (s.afterAll (s.opening r)).afterAll inside := by
  rw [passing, afterAll_append, afterAll_append]
  rfl

theorem printed?_opening (s : Settings) (r : Record) : (s.opening r).filterMap Act.printed? = [] := by
  obtain ⟨sink, filter, _ | ticker⟩ := s <;> rfl

theorem handed?_opening (s : Settings) (r : Record) :
    (s.opening r).filterMap Act.handed? = [s.sink.mark ++ s.text r] := by
  obtain ⟨sink, filter, _ | ticker⟩ := s <;> rfl

theorem isAnswer_opening {r : Record} {a : Act} (h : a ∈ s.opening r) : a.isAnswer := by
  obtain ⟨sink, filter, _ | ticker⟩ := s <;> simp [opening, drawing] at h
  · rw [h]; rfl
  · rcases h with rfl | rfl <;> rfl

end Settings

/-- How the acts of a course follow on each other. -/
inductive Orderly : Settings → List Act → Prop
  | nil (s : Settings) : Orderly s []
  | change {s : Settings} {a : Act} {acts : List Act} (ha : a.isChange) (hrest : Orderly (s.after a) acts) :
      Orderly s (a :: acts)
  | dropped {s : Settings} {r : Record} {acts : List Act} (hr : ¬ s.filter.admits r.level) (hrest : Orderly s acts) :
      Orderly s (.called (.record r) :: acts)
  | passed {s : Settings} {r : Record} {inside rest : List Act} (hr : s.filter.admits r.level)
      (hinside : Orderly (s.afterAll (s.opening r)) inside) (hrest : Orderly (s.afterAll (s.passing r inside)) rest) :
      Orderly s (.called (.record r) :: (s.passing r inside ++ rest))

theorem Orderly.append {s : Settings} {acts more : List Act} (h : Orderly s acts)
    (hmore : Orderly (s.afterAll acts) more) : Orderly s (acts ++ more) := by
  induction h with
  | nil => exact hmore
  | change ha _ ih => exact .change ha (ih hmore)
  | dropped hr _ ih => exact .dropped hr (ih hmore)
  | passed hr hinside _ _ ih =>
    rw [List.cons_append, List.append_assoc]
    refine .passed hr hinside (ih ?_)
    rwa [Settings.afterAll_cons, Settings.afterAll_append] at hmore

/-- From the settings `s` on, the acts of a course are orderly, and they tell all of the console but the lines it had. -/
def Plays (s : Settings) (lines : List String) (played : Console × List Act) : Prop :=
  Orderly s played.2 ∧ played.1 = (s.afterAll played.2).console (lines ++ played.2.filterMap Act.printed?)

namespace Plays
variable {s : Settings} {lines : List String}

theorem nil : Plays s lines (s.console lines, []) := by
  refine ⟨.nil s, ?_⟩
  rw [List.filterMap_nil, List.append_nil]
  rfl

theorem change {a : Act} (ha : a.isChange) : Plays s lines ((s.after a).console lines, [a]) := by
  refine ⟨.change ha (.nil _), ?_⟩
  rw [List.filterMap_cons_none (Act.printed?_of_isChange ha), List.filterMap_nil, List.append_nil]
  rfl

theorem dropped {r : Record} (hr : ¬ s.filter.admits r.level) :
    Plays s lines (s.console lines, [.called (.record r)]) :=
  ⟨.dropped hr (.nil _), by rw [List.filterMap_cons_none rfl, List.filterMap_nil, List.append_nil]; rfl⟩

theorem passed {r : Record} (hr : s.filter.admits r.level) {inner : Console × List Act}
    (h : Plays (s.afterAll (s.opening r)) lines inner) :
    Plays s lines (inner.1.print (s.sink.mark ++ s.text r), .called (.record r) :: s.passing r inner.2) := by
  obtain ⟨horderly, hconsole⟩ := h
  refine ⟨?_, ?_⟩
  · rw [← List.append_nil (s.passing r inner.2)]
    exact .passed hr horderly (.nil _)
  · have hprinted : (s.passing r inner.2).filterMap Act.printed? =
        inner.2.filterMap Act.printed? ++ [s.sink.mark ++ s.text r] := by
      simp [Settings.passing, s.printed?_opening, Act.printed?]
    rw [hconsole, Settings.afterAll_cons, List.filterMap_cons_none rfl, hprinted, ← List.append_assoc]
    exact congrArg (Settings.console · _) (s.afterAll_passing r inner.2).symm

theorem append {played : Console × List Act} (h : Plays s lines played) (more : Console → Console × List Act)
    (hmore : ∀ s lines, Plays s lines (more (s.console lines))) :
    Plays s lines ((more played.1).1, played.2 ++ (more played.1).2) := by
  obtain ⟨horderly, hconsole⟩ := h
  obtain ⟨horderly', hconsole'⟩ := hconsole ▸ hmore (s.afterAll played.2) (lines ++ played.2.filterMap Act.printed?)
  refine ⟨horderly.append horderly', ?_⟩
  rw [hconsole', Settings.afterAll_append, List.filterMap_append, List.append_assoc]

end Plays

theorem take_record (s : Settings) (lines : List String) (r : Record) (inside : List Turn) :
    take (s.console lines) (.record r inside) = if s.filter.admits r.level then
      let inner := takes ((s.afterAll (s.opening r)).console lines) inside
      (inner.1.print (s.sink.mark ++ s.text r), .called (.record r) :: s.passing r inner.2)
    else (s.console lines, [.called (.record r)]) := by
  have hdraw := s.draw_console r lines
  rw [take]
  simp only [hdraw]
  rfl

mutual

theorem plays_take (s : Settings) (lines : List String) : ∀ turn : Turn, Plays s lines (take (s.console lines) turn)
  | .install sink => .change (a := .called (.install sink)) rfl
  | .setFilter filter => .change (a := .called (.setFilter filter)) rfl
  | .setTicker ticker => .change (a := .called (.setTicker ticker)) rfl
  | .tick next => .change (a := .ticked next) rfl
  | .record r inside => by
    rw [take_record]
    split
    case isTrue hr => exact .passed hr (plays_takes (s.afterAll (s.opening r)) lines inside)
    case isFalse hr => exact .dropped hr

theorem plays_takes (s : Settings) (lines : List String) :
    ∀ turns : List Turn, Plays s lines (takes (s.console lines) turns)
  | [] => by
    rw [takes]
    exact .nil
  | turn :: turns => by
    rw [takes]
    exact (plays_take s lines turn).append (takes · turns) fun s lines => plays_takes s lines turns

end

/-! ### Where an act stands -/

theorem append_eq_append_cons {α : Type} {xs ys before after : List α} {a : α} (h : xs ++ ys = before ++ a :: after) :
    (∃ x, xs = before ++ a :: x ∧ after = x ++ ys) ∨ ∃ b, before = xs ++ b ∧ ys = b ++ a :: after := by
  rcases List.append_eq_append_iff.1 h with ⟨b, rfl, hys⟩ | ⟨_ | ⟨a', x⟩, rfl, hx⟩
  · exact .inr ⟨b, rfl, hys⟩
  · exact .inr ⟨[], by simp, hx.symm⟩
  · obtain ⟨rfl, rfl⟩ := List.cons.inj hx
    exact .inl ⟨x, rfl, rfl⟩

/-- An act after a record that passes is the console's answer, is done by the sink on the way, is its printing, or comes
after all that. -/
theorem Settings.split_passing {s : Settings} {r : Record} {inside rest before after : List Act} {a : Act}
    (h : s.passing r inside ++ rest = before ++ a :: after) :
    (∃ x, s.opening r = before ++ a :: x) ∨
      (∃ b x, before = s.opening r ++ b ∧ inside = b ++ a :: x ∧
        after = x ++ .printed s.sink (s.text r) :: rest) ∨
      (before = s.opening r ++ inside ∧ a = .printed s.sink (s.text r)) ∨
      ∃ b, before = s.passing r inside ++ b ∧ rest = b ++ a :: after := by
  rw [passing, List.append_assoc, List.append_assoc] at h
  rcases append_eq_append_cons h with ⟨x, hopening, -⟩ | ⟨b, rfl, h₁⟩
  · exact .inl ⟨x, hopening⟩
  rcases append_eq_append_cons h₁ with ⟨x, rfl, rfl⟩ | ⟨b, rfl, h₂⟩
  · exact .inr (.inl ⟨b, x, rfl, rfl, rfl⟩)
  rcases append_eq_append_cons h₂ with ⟨x, hprinted, -⟩ | ⟨b, rfl, hrest⟩
  · obtain ⟨rfl, rfl⟩ : b = [] ∧ .printed s.sink (s.text r) = a := by
      rcases b with _ | ⟨_, _ | _⟩ <;> simp_all
    exact .inr (.inr (.inl ⟨by rw [List.append_nil], rfl⟩))
  · exact .inr (.inr (.inr ⟨b, by simp [passing], hrest⟩))

/-- What an act is, by what was done before it and what comes after it. -/
inductive Stands (s : Settings) (before : List Act) : Act → List Act → Prop
  | change {a : Act} {after : List Act} (ha : a.isChange) : Stands s before a after
  | dropped {r : Record} {after : List Act} (hr : ¬ (s.afterAll before).filter.admits r.level) :
      Stands s before (.called (.record r)) after
  | passed {r : Record} {inside rest : List Act} (hr : (s.afterAll before).filter.admits r.level)
      (hinside : Orderly ((s.afterAll before).afterAll ((s.afterAll before).opening r)) inside) :
      Stands s before (.called (.record r)) ((s.afterAll before).passing r inside ++ rest)
  | answer {history answered : List Act} {r : Record} {a : Act} {after : List Act}
      (hbefore : before = history ++ .called (.record r) :: answered) (hr : (s.afterAll history).filter.admits r.level)
      (hanswer : answered ++ [a] <+: (s.afterAll history).opening r) : Stands s before a after
  | printed {sink : Sink} {text : String} {after : List Act} : Stands s before (.printed sink text) after

namespace Stands
variable {s : Settings} {before after : List Act} {a : Act}

theorem prepend (earlier : List Act) (h : Stands (s.afterAll earlier) before a after) :
    Stands s (earlier ++ before) a after := by
  have hsettings := s.afterAll_append earlier before
  cases h with
  | change ha => exact .change ha
  | dropped hr =>
    rw [← hsettings] at hr
    exact .dropped hr
  | passed hr hinside =>
    rw [← hsettings] at hr hinside ⊢
    exact .passed hr hinside
  | @answer history answered r _ _ hbefore hr hanswer =>
    subst hbefore
    rw [← Settings.afterAll_append] at hr hanswer
    exact .answer (List.append_assoc ..).symm hr hanswer
  | printed => exact .printed

theorem append (h : Stands s before a after) (more : List Act) : Stands s before a (after ++ more) := by
  cases h with
  | change ha => exact .change ha
  | dropped hr => exact .dropped hr
  | passed hr hinside =>
    rw [List.append_assoc]
    exact .passed hr hinside
  | answer hbefore hr hanswer => exact .answer hbefore hr hanswer
  | printed => exact .printed

end Stands

namespace Orderly
variable {s : Settings} {acts before after : List Act} {a : Act}

theorem stands (h : Orderly s acts) (hacts : acts = before ++ a :: after) : Stands s before a after := by
  induction h generalizing before after with
  | nil => cases before <;> cases hacts
  | @change s e _ ha _ ih =>
    cases before with
    | nil =>
      cases hacts
      exact .change ha
    | cons _ before =>
      obtain ⟨rfl, rfl⟩ := List.cons.inj hacts
      exact .prepend [e] (ih rfl)
  | @dropped s r _ hr _ ih =>
    cases before with
    | nil =>
      cases hacts
      exact .dropped hr
    | cons _ before =>
      obtain ⟨rfl, rfl⟩ := List.cons.inj hacts
      exact .prepend [.called (.record r)] (ih rfl)
  | @passed s r inside rest hr hinside _ ihinside ihrest =>
    cases before with
    | nil =>
      cases hacts
      exact .passed hr hinside
    | cons _ before =>
      obtain ⟨rfl, hsplit⟩ := List.cons.inj hacts
      -- The acts on the way have the induction hypothesis of their own: they follow on the answer, not on the whole.
      rcases Settings.split_passing hsplit with ⟨x, hx⟩ | ⟨b, x, rfl, rfl, rfl⟩ | ⟨-, rfl⟩ | ⟨b, rfl, rfl⟩
      · refine .answer (List.nil_append _).symm hr ⟨x, ?_⟩
        rw [List.append_assoc]
        exact hx.symm
      · exact .prepend (.called (.record r) :: s.opening r) ((ihinside rfl).append _)
      · exact .printed
      · exact .prepend (.called (.record r) :: s.passing r inside) (ihrest rfl)

/-- After a record that passes come the console's answer, what its sink does, and its line. -/
theorem exists_passing (h : Orderly s acts) {r : Record} (hacts : acts = before ++ .called (.record r) :: after)
    (hr : (s.afterAll before).filter.admits r.level) :
    ∃ inside rest, after = (s.afterAll before).passing r inside ++ rest ∧
      Orderly ((s.afterAll before).afterAll ((s.afterAll before).opening r)) inside := by
  cases h.stands hacts with
  | change ha => cases ha
  | dropped hdropped => exact absurd hr hdropped
  | passed _ hinside => exact ⟨_, _, rfl, hinside⟩
  | answer _ _ hanswer =>
    have hopening : (Act.called (.record r)).isAnswer := Settings.isAnswer_opening (hanswer.subset (by simp))
    cases hopening

/-- The console draws no stamp and hands over no line but in answer to a record that passes. -/
theorem exists_record (h : Orderly s acts) (hacts : acts = before ++ a :: after) (ha : a.isAnswer) :
    ∃ history r answered, before = history ++ .called (.record r) :: answered ∧
      (s.afterAll history).filter.admits r.level ∧ answered ++ [a] <+: (s.afterAll history).opening r := by
  cases h.stands hacts with
  | change hchange => exact absurd ha (Act.not_isAnswer_of_isChange hchange)
  | answer hbefore hr hanswer => exact ⟨_, _, _, hbefore, hr, hanswer⟩
  | dropped | passed | printed => cases ha

/-- Each line that is handed to a sink is printed, once. -/
theorem printed_perm_handed (h : Orderly s acts) :
    (acts.filterMap Act.printed?).Perm (acts.filterMap Act.handed?) := by
  induction h with
  | nil => exact .nil
  | @change s a acts ha _ ih =>
    rwa [List.filterMap_cons_none (Act.printed?_of_isChange ha), List.filterMap_cons_none (Act.handed?_of_isChange ha)]
  | dropped _ _ ih => exact ih
  | @passed s r inside rest _ _ _ ihinside ihrest =>
    have hprinted : (s.passing r inside ++ rest).filterMap Act.printed? =
        inside.filterMap Act.printed? ++ (s.sink.mark ++ s.text r) :: rest.filterMap Act.printed? := by
      simp [Settings.passing, s.printed?_opening, Act.printed?]
    have hhanded : (s.passing r inside ++ rest).filterMap Act.handed? =
        (s.sink.mark ++ s.text r) :: (inside.filterMap Act.handed? ++ rest.filterMap Act.handed?) := by
      have hnone : Act.handed? (.printed s.sink (s.text r)) = none := rfl
      simp [Settings.passing, s.handed?_opening, hnone]
    rw [List.filterMap_cons_none rfl, List.filterMap_cons_none rfl, hprinted, hhanded]
    exact List.perm_middle.trans ((ihinside.append ihrest).cons _)

end Orderly

/-! ### The calls of a console as a course -/

/-- The records that a sink logs on the way. -/
def Turn.interjected : List (List Record) → List Turn
  | [] => []
  | first :: deeper => first.map (.record · (interjected deeper))

/-- A call, with what the sink of the console does on the way. -/
def turn (c : Console) : Call → Turn
  | .install sink => .install sink
  | .setFilter filter => .setFilter filter
  | .setTicker ticker => .setTicker ticker
  | .record r => .record r (Turn.interjected (c.sink.elim [] Sink.interjections))

def turns (c : Console) : List Call → List Turn
  | [] => []
  | call :: calls => c.turn call :: (c.perform call).turns calls

variable {c : Console} {sink : Sink}

theorem emit_of_no_sink (h : c.sink = none) (interjections : List (List Record)) (r : Record) :
    emit interjections c r = c := by
  cases interjections <;> simp only [emit, h]

theorem take_of_no_sink (h : c.sink = none) (r : Record) (inside : List Turn) :
    take c (.record r inside) = (c, [.called (.record r)]) := by
  simp only [take, h]

theorem emit_eq_take {interjections : List (List Record)}
    (h : ∀ c, interject interjections c = (takes c (Turn.interjected interjections)).1) (c : Console) (r : Record) :
    emit interjections c r = (take c (.record r (Turn.interjected interjections))).1 := by
  cases hsink : c.sink with
  | none => rw [emit_of_no_sink hsink, take_of_no_sink hsink]
  | some sink =>
    have hemit : emit interjections (c.writingTo sink c.lines) r = _ := emit_writingTo interjections r
    have hdrawn : c.draw.2.sink = some sink ∧ c.draw.2.lines = c.lines := by
      unfold draw
      cases c.ticker <;> exact ⟨hsink, rfl⟩
    rw [writingTo_self hsink, ← hdrawn.2, writingTo_self hdrawn.1] at hemit
    rw [hemit, h, take]
    simp only [hsink]
    split <;> rfl

theorem interject_eq_takes (interjections : List (List Record)) (c : Console) :
    interject interjections c = (takes c (Turn.interjected interjections)).1 := by
  induction interjections generalizing c with
  | nil => rw [Turn.interjected, takes, interject]
  | cons first deeper ih =>
    rw [interject, Turn.interjected]
    induction first generalizing c with
    | nil => rw [List.map_nil, takes, List.foldl_nil]
    | cons r first ihfirst => rw [List.map_cons, takes, List.foldl_cons, ihfirst, emit_eq_take ih]

theorem perform_eq_take (c : Console) (call : Call) : c.perform call = (take c (c.turn call)).1 := by
  cases call with
  | install | setFilter | setTicker => simp only [perform, turn, take]
  | record r =>
    cases hsink : c.sink with
    | none =>
      rw [turn, take_of_no_sink hsink]
      simp only [perform, record, hsink]
    | some sink =>
      simp only [perform, record, turn, hsink, Option.elim_some]
      exact emit_eq_take (interject_eq_takes _) c r

theorem performs_eq_takes (c : Console) (calls : List Call) : c.performs calls = (takes c (c.turns calls)).1 := by
  induction calls generalizing c with
  | nil => rw [turns, takes]; rfl
  | cons call calls ih => rw [performs_cons, turns, takes, ih, perform_eq_take]

theorem install_eq_console (c : Console) (sink : Sink) : (c.install sink).2 =
    Settings.console ⟨sink, (c.install sink).2.filter, (c.install sink).2.ticker⟩ c.lines := by
  obtain ⟨_ | _, _, _, _, _⟩ := c <;> rfl

/-- From any console, an installation and any course of calls after it. A record that passes is stamped and handed over at
once, and printed when its sink is done, with all records that the sink logs on the way; no stamp is drawn and no line
handed over but so. The lines are those printed, and those printed are those handed over. Plain calls are such a course. -/
theorem records_reach_sink (c : Console) (first : Sink) (course : List Turn) :
    let start := (c.install first).2
    let acts := (start.takes course).2
    let settings := Settings.afterAll ⟨first, start.filter, start.ticker⟩
    (∀ before r after, acts = before ++ .called (.record r) :: after → (settings before).filter.admits r.level →
      ∃ inside rest, after = (settings before).passing r inside ++ rest ∧
        ∀ before' r' after', inside = before' ++ .called (.record r') :: after' →
          let nested := settings (before ++ .called (.record r) :: ((settings before).opening r ++ before'))
          nested.filter.admits r'.level → ∃ inside' rest', after' = nested.passing r' inside' ++ rest') ∧
    (∀ before a after, acts = before ++ a :: after → a.isAnswer → ∃ history r answered,
      before = history ++ .called (.record r) :: answered ∧ (settings history).filter.admits r.level ∧
        answered ++ [a] <+: (settings history).opening r) ∧
    (start.takes course).1.lines = start.lines ++ acts.filterMap Act.printed? ∧
    (acts.filterMap Act.printed?).Perm (acts.filterMap Act.handed?) ∧
    ∀ calls, start.performs calls = (start.takes (start.turns calls)).1 := by
  intro start acts settings
  obtain ⟨horderly, hconsole⟩ := plays_takes ⟨first, start.filter, start.ticker⟩ c.lines course
  rw [← install_eq_console c first] at horderly hconsole
  refine ⟨fun before r after hacts hr => ?_, fun before a after hacts ha => horderly.exists_record hacts ha,
    ?_, horderly.printed_perm_handed, performs_eq_takes start⟩
  · obtain ⟨inside, rest, rfl, hinside⟩ := horderly.exists_passing hacts hr
    refine ⟨inside, rest, rfl, fun before' r' after' hinside' => ?_⟩
    intro nested hnested
    have hsettings : nested = _ := Settings.afterAll_append _ _ _
    rw [Settings.afterAll_cons, Settings.afterAll_append] at hsettings
    rw [hsettings] at hnested ⊢
    obtain ⟨inside', rest', rfl, -⟩ := hinside.exists_passing hinside' hnested
    exact ⟨inside', rest', rfl⟩
  · have hlines : start.lines = c.lines := (congrArg lines (install_eq_console c first)).trans rfl
    rw [hlines]
    exact congrArg lines hconsole

/-- A sink that warns in the middle of a line: the warning is stamped second and printed first. -/
theorem records_reach_sink_warning :
    let start := (absent.install ⟨"", [[⟨.warn, "inner"⟩]]⟩).2
    let calls : List Call := [.setTicker ⟨42, 1⟩, .record ⟨.info, "outer"⟩, .record ⟨.trace, "held back"⟩]
    let acts := (start.takes (start.turns calls)).2
    let now : Settings := ⟨⟨"", [[⟨.warn, "inner"⟩]]⟩, some .debug, some ⟨42, 1⟩⟩
    (now.filter.admits .info ∧ ∃ inside rest, acts =
      .called (.setTicker ⟨42, 1⟩) :: .called (.record ⟨.info, "outer"⟩) ::
        (now.passing ⟨.info, "outer"⟩ inside ++ rest)) ∧
    (start.performs calls).lines = acts.filterMap Act.printed? ∧ acts.filterMap Act.printed? =
      ["[        43] [\x1b[33mWARN\x1b[0m ] inner\n", "[        42] [\x1b[32mINFO\x1b[0m ] outer\n"] := by
  intro start calls acts now
  obtain ⟨hpassing, -, hlines, -, hcalls⟩ :=
    records_reach_sink absent ⟨"", [[⟨.warn, "inner"⟩]]⟩ (start.turns calls)
  obtain ⟨inside, rest, hafter, -⟩ := hpassing [.called (.setTicker ⟨42, 1⟩)] ⟨.info, "outer"⟩ _ rfl rfl
  have hacts : acts = [.called (.setTicker ⟨42, 1⟩)] ++ .called (.record ⟨.info, "outer"⟩) :: _ := rfl
  rw [hafter] at hacts
  exact ⟨⟨rfl, inside, rest, hacts⟩, (congrArg lines (hcalls calls)).trans hlines, by decide +kernel⟩

end SecureDigital.Console
