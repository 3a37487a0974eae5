import Duplex.Proofs.Pipe.Effects
import Duplex.Proofs.Steps

/-!
# Flags that are told once

The error of a completion and the mark of a cancellation work alike: the value is put into a slot,
the next call that looks is told it and empties the slot, and the calls after that are told nothing.
A `Slot` of a pipe is such a flag with what each access puts into it and tells of it. So while
nothing is put into a slot, the first call is told what it holds, and every other one that it is
empty (`Linked.tells`).

There are three: the error of the writer (`writerErrors`), of which the calls of the reading end are
told, the error of the reader (`readerErrors`), of which flushes are told, and the mark of a
cancellation (`cancellations`), of which reads are told. What calls return before and after they are
filled is read off that: `Linked.answers`, `Linked.flushes` and `Linked.canceled_once`.

None of this depends on where calls sleep, so it holds of `Linked` histories, which are runs up to
that: runs are (`Run.linked`), and so are the accesses of calls that are woken some time after a
change.
-/

namespace Duplex.Pipe

/-! ## Linked histories -/

/-- The pipe without the places where calls sleep. -/
def core (p : Pipe) : Pipe := { p with readable := {}, writable := {} }

/-- From `p`, the accesses of `h` lead to `q`, up to the places where calls sleep. -/
def Linked (p : Pipe) (h : List Event) (q : Pipe) : Prop :=
  Steps (fun before (e : Event) after => e.before.core = before ∧ after = e.after.core)
    p.core h q.core

variable {p q : Pipe} {h h₁ h₂ : List Event}

theorem flags_of_core (hc : q.core = p.core) : q.flags = p.flags :=
  show q.core.flags = p.core.flags by rw [hc]

theorem Run.linked (run : Run p h q) : Linked p h q := by
  induction run with
  | nil => exact .nil
  | snoc _ a ih => exact Steps.snoc ih ⟨rfl, rfl⟩

theorem Linked.split {e : Event} (hl : Linked p (h₁ ++ e :: h₂) q) :
    Linked p h₁ e.before ∧ Linked e.after h₂ q := by
  obtain ⟨_, _, before, ⟨rfl, rfl⟩, after⟩ := Steps.split hl
  exact ⟨before, after⟩

/-- What each access keeps, and what does not depend on the sleeping places, a linked history
keeps. -/
theorem Linked.induct {P : List Event → Pipe → Prop} (hl : Linked p h q)
    (congr : ∀ {h p q}, q.core = p.core → P h p → P h q) (nil : P [] p)
    (snoc : ∀ {h e}, Linked p h e.before → P h e.before → P (h ++ [e]) e.after) : P h q := by
  unfold Linked at hl
  generalize hc : q.core = c at hl
  induction hl generalizing q with
  | nil => exact congr hc nil
  | @snoc h t u e steps step ih =>
    obtain ⟨rfl, rfl⟩ := step
    exact congr hc (snoc steps (ih rfl))

/-! ## Slots -/

/-- A flag that is told once: what it holds when it is empty and where it is kept, what an access
puts into it, and what it tells the call that ends with it. -/
structure Slot (α : Type) where
  empty : α
  get : Flags → α
  puts : Event → Option α
  tells : Event → Option α
  put : ∀ {e : Event} {value : α}, puts e = some value → get e.after.flags = value
  tell : ∀ {e : Event}, puts e = none →
    tells e = none ∧ get e.after.flags = get e.before.flags ∨
      tells e = some (get e.before.flags) ∧ get e.after.flags = empty

/-- If nothing is put into a slot, the first call is told what it holds, and every other one that it
is empty. -/
theorem Linked.tells {α : Type} (slot : Slot α) (hl : Linked p h q)
    (hn : ∀ e ∈ h, slot.puts e = none) :
    h.filterMap slot.tells = [] ∧ slot.get q.flags = slot.get p.flags ∨
      ∃ rest, h.filterMap slot.tells = slot.get p.flags :: rest ∧
        (∀ value ∈ rest, value = slot.empty) ∧ slot.get q.flags = slot.empty := by
  revert hn
  refine hl.induct (P := fun h q => (∀ e ∈ h, slot.puts e = none) →
    h.filterMap slot.tells = [] ∧ slot.get q.flags = slot.get p.flags ∨
      ∃ rest, h.filterMap slot.tells = slot.get p.flags :: rest ∧
        (∀ value ∈ rest, value = slot.empty) ∧ slot.get q.flags = slot.empty)
    (fun hc ih hn => ?_) (fun _ => .inl ⟨rfl, rfl⟩) (fun {h e} _ ih hn => ?_)
  · rw [flags_of_core hc]; exact ih hn
  · have hs : (h ++ [e]).filterMap slot.tells =
        h.filterMap slot.tells ++ (slot.tells e).toList := by
      rw [List.filterMap_append, List.filterMap_cons]
      cases slot.tells e <;> rfl
    have hb := ih fun e he => hn e (List.mem_append_left _ he)
    have he := slot.tell (hn e (List.mem_append_right _ (List.mem_singleton.mpr rfl)))
    rw [hs]
    rcases he with ⟨ht, hg⟩ | ⟨ht, hg⟩ <;> rw [ht, hg]
    · rw [Option.toList_none, List.append_nil]; exact hb
    · rcases hb with ⟨h₀, hg₀⟩ | ⟨rest, h₀, hr, hg₀⟩ <;> rw [h₀, hg₀]
      · exact .inr ⟨[], rfl, List.forall_mem_nil _, rfl⟩
      · refine .inr ⟨rest ++ [slot.empty], rfl, fun value hv => ?_, rfl⟩
        exact (List.mem_append.mp hv).elim (hr value) List.mem_singleton.mp

/-- The same of what calls return, if what they are told is a part of that. -/
theorem Linked.told {α β : Type} (slot : Slot α) (view : β → α) {returned : List β}
    (hl : Linked p h q) (hn : ∀ e ∈ h, slot.puts e = none)
    (hv : h.filterMap slot.tells = returned.map view) :
    (∀ first rest, returned = first :: rest →
        view first = slot.get p.flags ∧ ∀ later ∈ rest, view later = slot.empty) ∧
      slot.get q.flags = if returned = [] then slot.get p.flags else slot.empty := by
  rcases hl.tells slot hn with ⟨he, hg⟩ | ⟨values, he, hr, hg⟩ <;> rw [hv] at he
  · obtain rfl := List.map_eq_nil_iff.mp he
    exact ⟨fun _ _ hf => (by cases hf), hg⟩
  · obtain ⟨first, rest, rfl, hf, rfl⟩ := List.map_eq_cons_iff.mp he
    refine ⟨?_, hg⟩
    rintro _ _ ⟨⟩
    exact ⟨hf, fun later hm => hr _ (List.mem_map_of_mem hm)⟩

/-- As long as a slot is empty, calls are told nothing. -/
theorem Linked.told_empty {α β : Type} (slot : Slot α) (view : β → α) {returned : List β}
    (hl : Linked p h q) (hn : ∀ e ∈ h, slot.puts e = none)
    (hv : h.filterMap slot.tells = returned.map view) (he : slot.get p.flags = slot.empty) :
    ∀ value ∈ returned, view value = slot.empty := by
  obtain ⟨ht, -⟩ := hl.told slot view hn hv
  intro value hm
  cases returned with
  | nil => cases hm
  | cons first rest =>
    obtain ⟨hf, hr⟩ := ht first rest rfl
    rcases List.mem_cons.mp hm with rfl | hm
    · exact hf.trans he
    · exact hr value hm

/-! ## What calls return -/

/-- What a call of the reading end returns. -/
inductive Answer where
  | report (result : ReadResult)
  | segment (chunk : Option Bytes)

/-- What the call of the reading end returns that ends with this access. -/
def Event.answer (e : Event) : Option (Except ConnectionError Answer) :=
  match e.access with
  | .reader (.read call) =>
    match (e.before.read call).1 with
    | .done (.error error) => some (.error error)
    | .done (.ok result) => some (.ok (.report result))
    | _ => none
  | .reader (.readChunk call) =>
    match (e.before.readChunk call).1 with
    | .done (.error error) => some (.error error)
    | .done (.ok chunk) => some (.ok (.segment chunk))
    | _ => none
  | _ => none

/-- The error of a call that has failed. -/
def refusal {α : Type} : Except ConnectionError α → Option ConnectionError
  | .error error => some error
  | .ok _ => none

/-- What a call of the reading end returns is what its read has reported, if it returns at all. -/
theorem Event.answer_cases (e : Event) :
    e.answer = none ∧ (e.looked = none ∨ ∃ r, e.looked = some (.ok r)) ∨
      (∃ error, e.answer = some (.error error) ∧ e.looked = some (.error error)) ∨
      ∃ answer r, e.answer = some (.ok answer) ∧ e.looked = some (.ok r) := by
  obtain ⟨p, a⟩ := e
  rcases a with _ | (call | call | _ | _ | _) | _
  case reader.read =>
    simp only [answer, looked]
    generalize (p.read call).1 = x
    obtain _ | _ | error | r := x
    · exact .inl ⟨rfl, .inl rfl⟩
    · exact .inl ⟨rfl, .inl rfl⟩
    · exact .inr (.inl ⟨error, rfl, rfl⟩)
    · exact .inr (.inr ⟨_, r, rfl, rfl⟩)
  case reader.readChunk =>
    rcases hr : p.read call with ⟨_ | _ | error | r, q⟩ <;>
      simp only [answer, looked, readChunk, hr]
    · exact .inl ⟨trivial, .inl trivial⟩
    · exact .inl ⟨trivial, .inl trivial⟩
    · exact .inr (.inl ⟨error, rfl, rfl⟩)
    · generalize (if r.isEmpty = true then (none, q) else q.takeFront).1 = chunk
      cases chunk with
      | some chunk => exact .inr (.inr ⟨_, r, rfl, rfl⟩)
      | none =>
        cases r.completed with
        | true => exact .inr (.inr ⟨_, r, rfl, rfl⟩)
        | false => exact .inl ⟨rfl, .inr ⟨r, rfl⟩⟩
  all_goals exact .inl ⟨rfl, .inl rfl⟩

theorem Event.answer_eq_none {e : Event} (hl : e.looked = none) : e.answer = none := by
  rcases e.answer_cases with ⟨h, -⟩ | ⟨_, -, h⟩ | ⟨_, _, -, h⟩
  · exact h
  · rw [hl] at h; cases h
  · rw [hl] at h; cases h

/-- The report of a look that has not failed. -/
def reportOf : Option (Except ConnectionError ReadResult) → Option ReadResult
  | some (.ok r) => some r
  | _ => none

theorem Event.reported_eq (e : Event) : e.reported = reportOf e.looked := by
  obtain ⟨p, a⟩ := e
  rcases a with _ | (call | call | _ | _ | _) | _
  case reader.read | reader.readChunk =>
    simp only [reported, looked]
    generalize (p.read call).1 = x
    obtain _ | _ | _ | _ := x <;> rfl
  all_goals rfl

/-! ## The slots of a pipe -/

/-- The error of the writer: its first completion puts it, and the calls of the reading end are told
it. -/
def writerErrors : Slot (Option ConnectionError) where
  empty := none
  get := Flags.writerError
  puts e := e.completion.head?
  tells e := e.answer.map refusal
  put := by
    intro e value hp
    have puts : ∀ {s : Seen}, e.seen = s → s.writer.head? = some value := by
      rintro _ rfl; exact hp
    cases e.effect with
    | completeWriter error seen first flags =>
      cases puts seen
      rw [flags]
    | idle seen | flush _ seen | read seen | completeReader _ seen | cancel seen => cases puts seen
  tell := by
    intro e hp
    have unread : ∀ {f : Flags} {s : Seen}, e.after.flags = f → e.seen = s → s.looked = none →
        f.writerError = e.before.writerError → e.answer.map refusal = none ∧
          e.after.flags.writerError = e.before.flags.writerError := by
      rintro _ _ rfl rfl hl hg
      exact ⟨by rw [Event.answer_eq_none hl, Option.map_none], hg⟩
    cases e.effect with
    | idle seen flags => exact .inl (unread flags seen rfl rfl)
    | flush access seen look => exact .inl (unread rfl seen rfl look.reader.1)
    | read seen after flags look =>
      rw [flags]
      have ha := e.answer_cases
      generalize e.looked = result at look ha
      cases look with
      | failed waiting =>
        rcases ha with ⟨-, h | ⟨_, h⟩⟩ | ⟨_, ha, h⟩ | ⟨_, _, -, h⟩ <;> cases h
        exact .inr ⟨by rw [ha]; exact congrArg some waiting.symm, rfl⟩
      | canceled errors mark | found errors mark ready =>
        rcases ha with ⟨ha, -⟩ | ⟨_, -, h⟩ | ⟨_, _, ha, -⟩
        · exact .inl ⟨by rw [ha, Option.map_none], rfl⟩
        · cases h
        · exact .inr ⟨by rw [ha]; exact congrArg some errors.symm, errors⟩
      | blocked blocked =>
        rcases ha with ⟨ha, -⟩ | ⟨_, -, h⟩ | ⟨_, _, -, h⟩
        · exact .inl ⟨by rw [ha, Option.map_none], rfl⟩
        · cases h
        · cases h
    | completeWriter error seen first flags =>
      rw [show e.completion = [error] from congrArg Seen.writer seen] at hp
      cases hp
    | completeReader error seen first flags => exact .inl (unread flags seen rfl rfl)
    | cancel seen flags => exact .inl (unread flags seen rfl rfl)

/-- The error of the reader: its first completion puts it, and the flushes after that are told
it. -/
def readerErrors : Slot (Option ConnectionError) where
  empty := none
  get := Flags.readerError
  puts e := e.readerCompletion.head?
  tells e := if e.before.readerCompleted then e.flushed.map refusal else none
  put := by
    intro e value hp
    have puts : ∀ {s : Seen}, e.seen = s → s.reader.head? = some value := by
      rintro _ rfl; exact hp
    cases e.effect with
    | completeReader error seen first flags =>
      cases puts seen
      rw [flags]
    | idle seen | flush _ seen | read seen | completeWriter _ seen | cancel seen => cases puts seen
  tell := by
    intro e hp
    have unflushed : ∀ {f : Flags} {s : Seen}, e.after.flags = f → e.seen = s → s.flushed = none →
        f.readerError = e.before.readerError →
        (if e.before.readerCompleted then e.flushed.map refusal else none) = none ∧
          e.after.flags.readerError = e.before.flags.readerError := by
      rintro _ _ rfl rfl hf hg
      rw [show e.flushed = none from hf, Option.map_none, ite_self]
      exact ⟨rfl, hg⟩
    cases e.effect with
    | idle seen flags => exact .inl (unflushed flags seen rfl rfl)
    | flush access seen look =>
      generalize e.flushed = result at look ⊢
      generalize e.after = q at look
      cases look with
      | failed reader waiting => exact .inr ⟨by rw [reader]; exact congrArg some waiting.symm, rfl⟩
      | ended reader errors => exact .inr ⟨by rw [reader]; exact congrArg some errors.symm, errors⟩
      | free reader | passed reader | paused reader | resumed reader | held reader =>
        exact .inl ⟨by rw [reader]; rfl, rfl⟩
    | read seen after flags look => exact .inl (unflushed flags seen rfl look.writer.1)
    | completeWriter error seen first flags => exact .inl (unflushed flags seen rfl rfl)
    | completeReader error seen first flags =>
      rw [show e.readerCompletion = [error] from congrArg Seen.reader seen] at hp
      cases hp
    | cancel seen flags => exact .inl (unflushed flags seen rfl rfl)

/-- The mark of a cancellation: whoever cancels puts it, and the reads that report are told it. -/
def cancellations : Slot Bool where
  empty := false
  get := Flags.readCanceled
  puts e := if e.access.cancels then some true else none
  tells e := e.reported.map ReadResult.canceled
  put := by
    intro e value hp
    have puts : ∀ {s : Seen}, e.seen = s →
        (if s.canceled then some true else none) = some value := by
      rintro _ rfl; exact hp
    cases e.effect with
    | cancel seen flags =>
      cases puts seen
      rw [flags]
    | idle seen | flush _ seen | read seen | completeWriter _ seen | completeReader _ seen =>
      cases puts seen
  tell := by
    intro e hp
    have unreported : ∀ {f : Flags} {s : Seen}, e.after.flags = f → e.seen = s →
        reportOf s.looked = none → f.readCanceled = e.before.readCanceled →
        e.reported.map ReadResult.canceled = none ∧
          e.after.flags.readCanceled = e.before.flags.readCanceled := by
      rintro _ _ rfl rfl hl hg
      exact ⟨by rw [Event.reported_eq, show reportOf e.looked = none from hl, Option.map_none], hg⟩
    cases e.effect with
    | idle seen flags => exact .inl (unreported flags seen rfl rfl)
    | flush access seen look => exact .inl (unreported rfl seen rfl look.reader.2)
    | read seen after flags look =>
      rw [flags, Event.reported_eq]
      generalize e.looked = result at look
      cases look with
      | failed waiting | blocked blocked => exact .inl ⟨rfl, rfl⟩
      | canceled errors mark => exact .inr ⟨congrArg some mark.symm, rfl⟩
      | found errors mark ready => exact .inr ⟨congrArg some mark.symm, mark⟩
    | completeWriter error seen first flags => exact .inl (unreported flags seen rfl rfl)
    | completeReader error seen first flags => exact .inl (unreported flags seen rfl rfl)
    | cancel seen flags =>
      rw [show e.access.cancels = true from congrArg Seen.canceled seen] at hp
      cases hp

/-! ## Completions in a linked history -/

theorem Event.writerCompleted_after {e : Event} {error : Option ConnectionError}
    (ha : e.access = .writer (.complete error)) : e.after.writerCompleted = true := by
  have hc := (completed_perform e.access e.before).2
  rw [ha] at hc
  rw [Event.after, ha, hc]
  exact Bool.or_true _

theorem Event.readerCompleted_after {e : Event} {error : Option ConnectionError}
    (ha : e.access = .reader (.complete error)) : e.after.readerCompleted = true := by
  have hc := (completed_perform e.access e.before).1
  rw [ha] at hc
  rw [Event.after, ha, hc]
  exact Bool.or_true _

/-- Completions stay. -/
theorem Linked.completed_mono (hl : Linked p h q) :
    (p.writerCompleted = true → q.writerCompleted = true) ∧
      (p.readerCompleted = true → q.readerCompleted = true) := by
  refine hl.induct (P := fun _ q => (p.writerCompleted = true → q.writerCompleted = true) ∧
    (p.readerCompleted = true → q.readerCompleted = true)) (fun {_ c d} hc ih => ?_)
    ⟨id, id⟩ (fun {_ e} _ ih => ?_)
  · have hw : d.writerCompleted = c.writerCompleted :=
      congrArg Flags.writerCompleted (flags_of_core hc)
    have hr : d.readerCompleted = c.readerCompleted :=
      congrArg Flags.readerCompleted (flags_of_core hc)
    rwa [hw, hr]
  · obtain ⟨hr, hw⟩ := completed_perform e.access e.before
    refine ⟨fun h => ?_, fun h => ?_⟩
    · exact hw.trans (by rw [ih.1 h, Bool.true_or])
    · exact hr.trans (by rw [ih.2 h, Bool.true_or])

/-- A completion that counts is the first of its end. -/
theorem writerErrors_puts (e : Event) : writerErrors.puts e = none ∨
    e.before.writerCompleted = false ∧ e.after.writerCompleted = true := by
  cases e.effect with
  | completeWriter error seen first flags =>
    exact .inr ⟨first, congrArg Flags.writerCompleted flags⟩
  | idle seen | flush _ seen | read seen | completeReader _ seen | cancel seen =>
    exact .inl (congrArg (fun s : Seen => s.writer.head?) seen)

theorem readerErrors_puts (e : Event) : readerErrors.puts e = none ∨
    e.before.readerCompleted = false ∧ e.after.readerCompleted = true := by
  cases e.effect with
  | completeReader error seen first flags =>
    exact .inr ⟨first, congrArg Flags.readerCompleted flags⟩
  | idle seen | flush _ seen | read seen | completeWriter _ seen | cancel seen =>
    exact .inl (congrArg (fun s : Seen => s.reader.head?) seen)

/-- Once an end has completed, no completion of it counts. -/
theorem Linked.puts_eq_none (hl : Linked p h q) :
    (p.writerCompleted = true → ∀ e ∈ h, writerErrors.puts e = none) ∧
      (p.readerCompleted = true → ∀ e ∈ h, readerErrors.puts e = none) := by
  refine ⟨fun hw e he => ?_, fun hr e he => ?_⟩ <;>
    obtain ⟨h₁, h₂, rfl⟩ := List.append_of_mem he <;> have mono := hl.split.1.completed_mono
  · refine (writerErrors_puts e).resolve_right fun hf => ?_
    rw [mono.1 hw] at hf
    cases hf.1
  · refine (readerErrors_puts e).resolve_right fun hf => ?_
    rw [mono.2 hr] at hf
    cases hf.1

/-- Before an end has completed, none of its completions has counted. -/
theorem Linked.puts_eq_none_before (hl : Linked p h q) :
    (q.writerCompleted = false → ∀ e ∈ h, writerErrors.puts e = none) ∧
      (q.readerCompleted = false → ∀ e ∈ h, readerErrors.puts e = none) := by
  refine ⟨fun hw e he => ?_, fun hr e he => ?_⟩ <;>
    obtain ⟨h₁, h₂, rfl⟩ := List.append_of_mem he <;> have mono := hl.split.2.completed_mono
  · refine (writerErrors_puts e).resolve_right fun hf => ?_
    rw [mono.1 hf.2] at hw
    cases hw
  · refine (readerErrors_puts e).resolve_right fun hf => ?_
    rw [mono.2 hf.2] at hr
    cases hr

/-! ## What calls are told of completions -/

variable {options : PipeOptions} {l l₁ l₂ : List Event} {x : Event}

theorem writerErrors_tells (l : List Event) :
    l.filterMap writerErrors.tells = (l.filterMap Event.answer).map refusal :=
  List.map_filterMap.symm

theorem readerErrors_tells (hl : Linked p l q) (hp : p.readerCompleted = true) :
    l.filterMap readerErrors.tells = (l.filterMap Event.flushed).map refusal := by
  have hc : ∀ x ∈ l, x.before.readerCompleted = true := fun x hx => by
    obtain ⟨l₁, l₂, rfl⟩ := List.append_of_mem hx
    exact hl.split.1.completed_mono.2 hp
  clear hl
  induction l with
  | nil => rfl
  | cons x l ih =>
    have hx : readerErrors.tells x = x.flushed.map refusal := if_pos (hc x (List.mem_cons_self ..))
    rw [List.filterMap_cons, List.filterMap_cons, hx,
      ih fun y hy => hc y (List.mem_cons_of_mem _ hy)]
    cases x.flushed <;> rfl

/-- A flush that reports completion reports that of the reader. -/
theorem Event.completed_of_flushed {r : FlushResult} (hf : x.flushed = some (.ok r)) :
    r = ⟨x.before.readerCompleted⟩ := by
  have hs : ∀ {s : Seen}, x.seen = s → s.flushed = some (.ok r) := by
    rintro _ rfl; exact hf
  cases x.effect with
  | flush access seen look =>
    rw [hf] at look
    generalize x.after = q at look
    cases look with
    | ended reader => rw [reader]
    | free reader | passed reader | resumed reader => rw [reader]
  | idle seen | read seen | completeWriter _ seen | completeReader _ seen | cancel seen =>
    cases hs seen

/-- Before the writer completes no call of the reading end fails; after that the first that returns
is told of the completion, and no other. Until then the error waits. -/
theorem Linked.answers {error : Option ConnectionError}
    (hl : Linked (create options) (l₁ ++ x :: l₂) q) (ha : x.access = .writer (.complete error))
    (hw : x.before.writerCompleted = false) :
    (∀ answer ∈ l₁.filterMap Event.answer, refusal answer = none) ∧
      (∀ first rest, l₂.filterMap Event.answer = first :: rest →
        refusal first = error ∧ ∀ answer ∈ rest, refusal answer = none) ∧
      q.writerError = (if l₂.filterMap Event.answer = [] then error else none) ∧
      x.after.writerCompleted = true := by
  obtain ⟨before, after⟩ := hl.split
  have hp : writerErrors.puts x = some error := by
    simp only [writerErrors, Event.completion, ha, hw]; rfl
  have hg : x.after.flags.writerError = error := writerErrors.put hp
  have hc : x.after.writerCompleted = true := Event.writerCompleted_after ha
  obtain ⟨told, waiting⟩ := after.told writerErrors refusal (after.puts_eq_none.1 hc)
    (writerErrors_tells l₂)
  subst hg
  exact ⟨before.told_empty writerErrors refusal (before.puts_eq_none_before.1 hw)
    (writerErrors_tells l₁) rfl, told, waiting, hc⟩

/-- Before the reader completes every flush that returns lets the writer go on. -/
theorem Linked.flushed_before (hl : Linked p l q) (hr : q.readerCompleted = false) :
    ∀ result ∈ l.filterMap Event.flushed, result = .ok ⟨false⟩ := by
  intro result hm
  obtain ⟨y, hy, hf⟩ := List.mem_filterMap.mp hm
  obtain ⟨m₁, m₂, rfl⟩ := List.append_of_mem hy
  have hn : y.before.readerCompleted = false := Bool.eq_false_iff.mpr fun h => by
    have ha : y.after.readerCompleted = true := by
      have hc := (completed_perform y.access y.before).1
      rw [h, Bool.true_or] at hc
      exact hc
    rw [hl.split.2.completed_mono.2 ha] at hr
    cases hr
  cases y.effect with
  | flush access seen look =>
    rw [hf] at look
    generalize y.after = q at look
    cases look with
    | failed reader | ended reader => rw [hn] at reader; cases reader
    | free | passed | resumed => rfl
  | idle seen | read seen | completeWriter _ seen | completeReader _ seen | cancel seen =>
    have hs := congrArg Seen.flushed seen
    rw [show y.seen.flushed = some result from hf] at hs
    cases hs

/-- After that every flush reports the completion, unless it is told of an error. -/
theorem Linked.flushed_after (hl : Linked p l q) (hr : p.readerCompleted = true) :
    ∀ result ∈ l.filterMap Event.flushed, result = (refusal result).elim (.ok ⟨true⟩) .error := by
  intro result hm
  obtain ⟨y, hy, hf⟩ := List.mem_filterMap.mp hm
  obtain ⟨m₁, m₂, rfl⟩ := List.append_of_mem hy
  cases result with
  | error error => rfl
  | ok r =>
    rw [Event.completed_of_flushed hf, hl.split.1.completed_mono.2 hr]
    rfl

/-- Before the reader completes every flush that returns lets the writer go on; after that the first
is told of the completion, and every other one reports it. Until then the error waits. -/
theorem Linked.flushes {error : Option ConnectionError}
    (hl : Linked (create options) (l₁ ++ x :: l₂) q) (ha : x.access = .reader (.complete error))
    (hr : x.before.readerCompleted = false) :
    (∀ result ∈ l₁.filterMap Event.flushed, result = .ok ⟨false⟩) ∧
      (∀ first rest, l₂.filterMap Event.flushed = first :: rest →
        first = error.elim (.ok ⟨true⟩) .error ∧ ∀ result ∈ rest, result = .ok ⟨true⟩) ∧
      q.readerError = (if l₂.filterMap Event.flushed = [] then error else none) ∧
      x.after.readerCompleted = true := by
  obtain ⟨before, after⟩ := hl.split
  have hp : readerErrors.puts x = some error := by
    simp only [readerErrors, Event.readerCompletion, ha, hr]; rfl
  have hg : x.after.flags.readerError = error := readerErrors.put hp
  have hc : x.after.readerCompleted = true := Event.readerCompleted_after ha
  obtain ⟨told, waiting⟩ := after.told readerErrors refusal (after.puts_eq_none.2 hc)
    (readerErrors_tells after hc)
  subst hg
  refine ⟨before.flushed_before hr, fun first rest hf => ?_, waiting, hc⟩
  obtain ⟨h₁, h₂⟩ := told first rest hf
  have reported := after.flushed_after hc
  rw [hf] at reported
  refine ⟨?_, fun result hm => ?_⟩
  · have hl := reported first (List.mem_cons_self ..)
    rwa [h₁] at hl
  · have hl := reported result (List.mem_cons_of_mem _ hm)
    rwa [h₂ result hm] at hl

/-- With what the reader was completed in a history. -/
def readerCompletions (l : List Event) : List (Option ConnectionError) :=
  l.flatMap Event.readerCompletion

/-- The first completion of the reader is the only one. -/
theorem Linked.readerCompletions_eq {error : Option ConnectionError}
    (hl : Linked (create options) (l₁ ++ x :: l₂) q) (ha : x.access = .reader (.complete error))
    (hr : x.before.readerCompleted = false) : readerCompletions (l₁ ++ x :: l₂) = [error] := by
  obtain ⟨before, after⟩ := hl.split
  have none_of {l : List Event} (hn : ∀ e ∈ l, readerErrors.puts e = none) :
      l.flatMap Event.readerCompletion = [] :=
    List.flatMap_eq_nil_iff.mpr fun e he => List.head?_eq_none_iff.mp (hn e he)
  have hx : x.readerCompletion = [error] := by
    simp only [Event.readerCompletion, ha, hr]; rfl
  have hc : x.after.readerCompleted = true := Event.readerCompleted_after ha
  rw [readerCompletions, List.flatMap_append, List.flatMap_cons, hx,
    none_of (before.puts_eq_none_before.2 hr), none_of (after.puts_eq_none.2 hc)]
  rfl

/-- No flush ever fails, nor will the next, exactly if the reader was completed without an error. -/
theorem Linked.flushes_plainly_iff {error : Option ConnectionError}
    (hl : Linked (create options) (l₁ ++ x :: l₂) q) (ha : x.access = .reader (.complete error))
    (hr : x.before.readerCompleted = false) :
    (∀ result ∈ (l₁ ++ x :: l₂).filterMap Event.flushed, refusal result = none) ∧
        q.checkFlush.1 = some (.ok ⟨true⟩) ↔ error = none := by
  obtain ⟨before, after, hg, hc⟩ := hl.flushes ha hr
  rw [checkFlush_completed (hl.split.2.completed_mono.2 hc), hg]
  constructor
  · rintro ⟨hn, hq⟩
    cases hf : l₂.filterMap Event.flushed with
    | nil =>
      rw [hf, if_pos rfl] at hq
      cases error with
      | none => rfl
      | some error => cases hq
    | cons first rest =>
      have hm : refusal first = none := hn first (by
        rw [List.filterMap_append, List.filterMap_cons]
        split <;> simp [hf])
      rw [(after first rest hf).1] at hm
      cases error with
      | none => rfl
      | some error => cases hm
  · rintro rfl
    have hx : x.flushed = none := by simp only [Event.flushed, ha]
    refine ⟨fun result hm => ?_, by rw [ite_self]; rfl⟩
    rw [List.filterMap_append, List.filterMap_cons, hx] at hm
    rcases List.mem_append.mp hm with hm | hm
    · rw [before result hm]; rfl
    · cases hf : l₂.filterMap Event.flushed with
      | nil => rw [hf] at hm; cases hm
      | cons first rest =>
        obtain ⟨h₁, h₂⟩ := after first rest hf
        rw [hf] at hm
        rcases List.mem_cons.mp hm with rfl | hm
        · rw [h₁]; rfl
        · rw [h₂ result hm]; rfl

/-! ## What reads are told of cancellations -/

/-- A canceled mark waits for a report. -/
theorem Linked.canceled_kept (hl : Linked p l q) (hm : p.readCanceled = true)
    (hr : l.filterMap Event.reported = []) : q.readCanceled = true := by
  revert hr
  refine hl.induct (P := fun l q => l.filterMap Event.reported = [] → q.readCanceled = true)
    (fun {_ c d} hc ih hr => ?_) (fun _ => hm) (fun {l e} _ ih hr => ?_)
  · exact (congrArg Flags.readCanceled (flags_of_core hc)).trans (ih hr)
  · rw [List.filterMap_append, List.append_eq_nil_iff] at hr
    have he : e.reported = none := List.filterMap_eq_nil_iff.mp hr.2 e (List.mem_singleton.mpr rfl)
    cases hp : cancellations.puts e with
    | some value =>
      have hv : value = true := by
        simp only [cancellations] at hp
        split at hp <;> cases hp
        rfl
      exact (cancellations.put hp).trans hv
    | none =>
      rcases cancellations.tell hp with ⟨-, hg⟩ | ⟨ht, -⟩
      · exact hg.trans (ih hr.1)
      · have hn : cancellations.tells e = none := by
          simp only [cancellations, he, Option.map_none]
        rw [hn] at ht
        cases ht

/-- A canceled mark comes from a cancellation since the last report. -/
theorem Linked.cancel_of_mark (hl : Linked (create options) l q) (hm : q.readCanceled = true) :
    ∃ l₁ c l₂, l = l₁ ++ c :: l₂ ∧ c.access = .cancel ∧ l₂.filterMap Event.reported = [] := by
  revert hm
  refine hl.induct (P := fun l q => q.readCanceled = true → ∃ l₁ c l₂, l = l₁ ++ c :: l₂ ∧
    c.access = .cancel ∧ l₂.filterMap Event.reported = []) (fun {_ c d} hc ih hm => ?_)
    (fun h => by cases h) (fun {l e} _ ih hm => ?_)
  · exact ih ((congrArg Flags.readCanceled (flags_of_core hc)).symm.trans hm)
  · cases hp : cancellations.puts e with
    | some value =>
      have ha : e.access = .cancel := by
        simp only [cancellations] at hp
        split at hp
        · rename_i hc
          cases hx : e.access with
          | cancel => rfl
          | writer | reader => rw [hx] at hc; cases hc
        · cases hp
      exact ⟨l, e, [], rfl, ha, rfl⟩
    | none =>
      rcases cancellations.tell hp with ⟨ht, hg⟩ | ⟨-, hg⟩
      · obtain ⟨l₁, c, l₂, rfl, hc, hr⟩ := ih (hg.symm.trans hm)
        have he : e.reported = none := by
          simp only [cancellations] at ht
          exact Option.map_eq_none_iff.mp ht
        refine ⟨l₁, c, l₂ ++ [e], by simp, hc, ?_⟩
        rw [List.filterMap_append, hr, List.filterMap_cons, he]
        rfl
      · have hf : e.after.readCanceled = false := hg
        rw [hf] at hm
        cases hm

theorem puts_of_reported {r : ReadResult} (hr : x.reported = some r) :
    cancellations.puts x = none ∧ cancellations.tells x = some r.canceled := by
  refine ⟨?_, by simp only [cancellations, hr, Option.map_some]⟩
  obtain ⟨p, a⟩ := x
  cases a with
  | cancel => cases hr
  | writer | reader => rfl

/-- A report tells the mark and takes it. -/
theorem Event.mark_of_reported {r : ReadResult} (hr : x.reported = some r) :
    r.canceled = x.before.readCanceled ∧ x.after.readCanceled = false := by
  obtain ⟨hp, ht⟩ := puts_of_reported hr
  rcases cancellations.tell hp with ⟨hn, -⟩ | ⟨hs, hg⟩
  · rw [ht] at hn; cases hn
  · exact ⟨Option.some.inj (ht.symm.trans hs), hg⟩

/-- After a cancellation the next report is canceled, and none of the reports after it is, until the
next cancellation. -/
theorem Linked.canceled_once {c : Event} {mid : List Event} {r : ReadResult}
    (hl : Linked p (l₁ ++ c :: (mid ++ x :: l₂)) q) (hc : c.access = .cancel)
    (hm : mid.filterMap Event.reported = []) (hr : x.reported = some r) :
    r.canceled = true ∧ ((∀ y ∈ l₂, y.access ≠ .cancel) →
      ∀ r ∈ l₂.filterMap Event.reported, r.canceled = false) := by
  obtain ⟨between, after⟩ := hl.split.2.split
  have hp : cancellations.puts c = some true := by simp only [cancellations, hc]; rfl
  have hk : x.before.readCanceled = true := between.canceled_kept (cancellations.put hp) hm
  obtain ⟨ht, hg⟩ := Event.mark_of_reported hr
  refine ⟨ht.trans hk, fun hn r hm => ?_⟩
  have hq : ∀ y ∈ l₂, cancellations.puts y = none := fun y hy => by
    simp only [cancellations]
    cases ha : y.access with
    | cancel => exact absurd ha (hn y hy)
    | writer | reader => rfl
  exact after.told_empty cancellations ReadResult.canceled hq List.map_filterMap.symm hg r hm

end Duplex.Pipe
