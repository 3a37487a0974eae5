import Duplex.Proofs.Pipe.Effects
import Duplex.Proofs.Pipe.Ledger

/-!
# Pauses of the writer

A look of a flush pauses the writer that finds the buffer at the pause threshold or above it, and
lets a paused writer go on that finds it at the resume threshold or below; one look may do both.
Nothing else touches the mark or the counts (`Event.marks`), in particular no flush that is given up
and no reader that completes, so the mark stays over from one flush to the next.

So the mark is the difference of the two counts (`Run.balanced`), and from a pause until a
resumption has been counted the writer is paused (`Run.paused_of_counted`), whatever the order of
the thresholds. `hysteresis` puts this together.
-/

namespace Duplex.Pipe

/-! ## One access -/

/-- What an access does to the mark of a paused writer and the two counts: nothing, or it is the
look of a flush. -/
theorem Event.marks (e : Event) :
    e.after.writerPaused = e.before.writerPaused ∧ e.after.pauses = e.before.pauses ∧
        e.after.resumes = e.before.resumes ∧ e.flushed = none ∨
      e.access = .writer (.flush .checking) ∧ FlushLook e.before e.flushed e.after := by
  have idle : ∀ {f : Flags} {s : Seen}, e.after.flags = f → e.seen = s →
      f.writerPaused = e.before.writerPaused → f.pauses = e.before.pauses →
      f.resumes = e.before.resumes → s.flushed = none →
      e.after.writerPaused = e.before.writerPaused ∧ e.after.pauses = e.before.pauses ∧
        e.after.resumes = e.before.resumes ∧ e.flushed = none := by
    rintro _ _ rfl rfl h₁ h₂ h₃ h₄
    exact ⟨h₁, h₂, h₃, h₄⟩
  cases e.effect with
  | flush access seen look => exact .inr ⟨access, look⟩
  | read seen after flags look =>
    obtain ⟨-, hw, hp, hr⟩ := look.writer
    exact .inl (idle flags seen hw hp hr rfl)
  | idle seen flags => exact .inl (idle flags seen rfl rfl rfl rfl)
  | completeWriter error seen first flags => exact .inl (idle flags seen rfl rfl rfl rfl)
  | completeReader error seen first flags => exact .inl (idle flags seen rfl rfl rfl rfl)
  | cancel seen flags => exact .inl (idle flags seen rfl rfl rfl rfl)

variable {e : Event}

theorem Event.counts_le (e : Event) :
    e.before.pauses ≤ e.after.pauses ∧ e.before.resumes ≤ e.after.resumes := by
  rcases e.marks with ⟨-, hp, hr, -⟩ | ⟨-, look⟩
  · exact ⟨Nat.le_of_eq hp.symm, Nat.le_of_eq hr.symm⟩
  · generalize e.after = q at look
    generalize e.flushed = result at look
    cases look <;> exact ⟨by simp only [Nat.le_refl, Nat.le_add_right],
      by simp only [Nat.le_refl, Nat.le_add_right]⟩

/-- A flush that lets the writer go on leaves it running, and has found little enough. -/
theorem Event.after_of_flushed (hf : e.flushed = some (.ok ⟨false⟩)) :
    e.after.writerPaused = false ∧ e.after.buffered = e.before.buffered ∧
      (e.before.options.pauseThreshold = 0 ∨
        e.before.buffered < e.before.options.pauseThreshold ∨
        e.before.buffered ≤ e.before.options.resumeThreshold) ∧
      (e.before.writerPaused = true →
        e.before.buffered ≤ e.before.options.resumeThreshold ∧
          e.after.resumes = e.before.resumes + 1) := by
  rcases e.marks with ⟨-, -, -, hn⟩ | ⟨-, look⟩
  · rw [hn] at hf; cases hf
  · rw [hf] at look
    generalize e.after = q at look
    cases look with
    | free reader running low =>
      exact ⟨running, rfl, low.imp_right .inl, fun h => by rw [running] at h; cases h⟩
    | passed reader running used high low =>
      exact ⟨rfl, rfl, .inr (.inr low), fun h => by rw [running] at h; cases h⟩
    | resumed reader held low => exact ⟨rfl, rfl, .inr (.inr low), fun _ => ⟨low, rfl⟩⟩

/-- A pause is counted by the look of a flush at a full buffer, and holds unless little enough is
buffered to go on at once. -/
theorem Event.of_paused (hp : e.after.pauses ≠ e.before.pauses) :
    e.access = .writer (.flush .checking) ∧ e.after.pauses = e.before.pauses + 1 ∧
      0 < e.before.options.pauseThreshold ∧
      e.before.options.pauseThreshold ≤ e.before.buffered ∧
      (e.after.resumes = e.before.resumes → e.flushed = none ∧ e.after.writerPaused = true) ∧
      (e.before.options.resumeThreshold < e.before.buffered →
        e.after.resumes = e.before.resumes) := by
  rcases e.marks with ⟨-, hn, -, -⟩ | ⟨access, look⟩
  · exact absurd hn hp
  · refine ⟨access, ?_⟩
    generalize e.flushed = result at look ⊢
    generalize e.after = q at look hp ⊢
    cases look with
    | passed reader running used high low =>
      exact ⟨rfl, used, high, fun h => absurd h (Nat.succ_ne_self _), fun h => by omega⟩
    | paused reader running used high above =>
      exact ⟨rfl, used, high, fun _ => ⟨rfl, rfl⟩, fun _ => rfl⟩
    | _ => exact absurd rfl hp

/-- A resumption is counted by a flush that finds little enough, and reports it. -/
theorem Event.of_resumed (hr : e.after.resumes ≠ e.before.resumes) :
    e.flushed = some (.ok ⟨false⟩) ∧ e.after.resumes = e.before.resumes + 1 ∧
      e.before.buffered ≤ e.before.options.resumeThreshold := by
  rcases e.marks with ⟨-, -, hn, -⟩ | ⟨-, look⟩
  · exact absurd hn hr
  · generalize e.flushed = result at look ⊢
    generalize e.after = q at look hr ⊢
    cases look with
    | passed reader running used high low => exact ⟨rfl, rfl, low⟩
    | resumed reader held low => exact ⟨rfl, rfl, low⟩
    | _ => exact absurd rfl hr

/-! ## Runs -/

/-- The mark is the difference of the counts, and stays down without a threshold. -/
structure Balanced (p : Pipe) : Prop where
  counts : p.pauses = p.resumes + p.writerPaused.toNat
  unused : p.options.pauseThreshold = 0 → p.pauses = 0

theorem Balanced.after (hb : e.before.Balanced) : e.after.Balanced := by
  have ho : e.after.options = e.before.options := options_perform e.access e.before
  obtain ⟨hc, hu⟩ := hb
  rcases e.marks with ⟨hw, hp, hr, -⟩ | ⟨-, look⟩
  · exact ⟨by rw [hp, hr, hw]; exact hc, fun h => hp.trans (hu (ho ▸ h))⟩
  · generalize e.flushed = result at look
    generalize e.after = q at look ho
    cases look with
    | passed reader running used high low =>
      rw [running] at hc
      exact ⟨congrArg Nat.succ hc, fun h => absurd h (Nat.ne_of_gt used)⟩
    | paused reader running used high above =>
      rw [running] at hc
      exact ⟨congrArg Nat.succ hc, fun h => absurd h (Nat.ne_of_gt used)⟩
    | resumed reader held low =>
      rw [held] at hc
      exact ⟨hc, hu⟩
    | _ => exact ⟨hc, hu⟩

variable {options : PipeOptions} {h : List Event} {p q : Pipe}

theorem Run.balanced (run : Run (create options) h p) : p.Balanced := by
  induction run with
  | nil => exact ⟨rfl, fun _ => rfl⟩
  | snoc _ a ih => exact Balanced.after (e := ⟨_, a⟩) ih

theorem Run.counts_le (run : Run p h q) : p.pauses ≤ q.pauses ∧ p.resumes ≤ q.resumes := by
  induction run with
  | nil => exact ⟨Nat.le_refl _, Nat.le_refl _⟩
  | @snoc h q _ a ih =>
    have hs := Event.counts_le ⟨q, a⟩
    exact ⟨Nat.le_trans ih.1 hs.1, Nat.le_trans ih.2 hs.2⟩

/-- Until the resumption of a pause has been counted, the writer is paused. -/
theorem Run.paused_of_counted {e₀ : Event} (start : e₀.before.Balanced)
    (hp : e₀.after.pauses ≠ e₀.before.pauses) (run : Run e₀.after h q) (hq : q.Balanced)
    (hr : q.resumes = e₀.before.resumes) : q.writerPaused = true := by
  have hc := (Event.of_paused hp).2.1
  have hm := run.counts_le.1
  have h₀ := start.counts
  have h₁ := hq.counts
  cases hw : q.writerPaused with
  | true => rfl
  | false =>
    rw [hw] at h₁
    simp only [Bool.toNat_false] at h₁
    omega

/-- While more is buffered than lets the writer go on, no resumption is counted. -/
theorem Run.resumes_eq (run : Run p h q)
    (ha : ∀ e ∈ h, e.before.options.resumeThreshold < e.before.buffered) :
    q.resumes = p.resumes := by
  induction run with
  | nil => rfl
  | @snoc h q _ a ih =>
    have hs : (Event.after ⟨q, a⟩).resumes = q.resumes := by
      refine Decidable.byContradiction fun hn => ?_
      have hl := (Event.of_resumed hn).2.2
      have hb := ha ⟨q, a⟩ (List.mem_append_right _ (List.mem_singleton.mpr rfl))
      exact absurd hl (Nat.not_le.mpr hb)
    exact hs.trans (ih fun e he => ha e (List.mem_append_left _ he))

/-- From the access `e₀` on, which counts a pause: until its resumption has been counted the writer
is paused, and no flush lets it go on that finds more than the resume threshold. -/
theorem Run.held {e₀ e : Event} (start : e₀.before.Balanced)
    (hp : e₀.after.pauses ≠ e₀.before.pauses) (run : Run e₀.after h e.before)
    (hb : e.before.Balanced) (hr : e.before.resumes = e₀.before.resumes)
    (ha : e.before.options.resumeThreshold < e.before.buffered) :
    e.flushed ≠ some (.ok ⟨false⟩) ∧ e.after.writerPaused = true ∧
      e.after.resumes = e₀.before.resumes := by
  have hq : e.after.resumes = e.before.resumes := by
    refine Decidable.byContradiction fun hn => ?_
    exact absurd (Event.of_resumed hn).2.2 (Nat.not_le.mpr ha)
  have hw : e.before.writerPaused = true := run.paused_of_counted start hp hb hr
  refine ⟨fun hf => ?_, ?_, hq.trans hr⟩
  · exact absurd ((Event.after_of_flushed hf).2.2.2 hw).1 (Nat.not_le.mpr ha)
  · exact (run.snoc e.access).paused_of_counted start hp hb.after (hq.trans hr)

/-- What holds of the pauses of a writer, whatever the thresholds. -/
structure Paced (options : PipeOptions) (h : List Event) (p : Pipe) : Prop where
  counts : p.pauses = p.resumes + if p.writerPaused then 1 else 0
  /-- Both counts only grow. -/
  grow : ∀ e ∈ h, e.before.pauses ≤ e.after.pauses ∧ e.before.resumes ≤ e.after.resumes ∧
    e.after.pauses ≤ p.pauses ∧ e.after.resumes ≤ p.resumes
  /-- Without a pause threshold the writer is never paused. -/
  unused : options.pauseThreshold = 0 → p.writerPaused = false ∧ p.pauses = 0
  /-- A flush that lets the writer go on leaves it running, and finds little enough. -/
  released : ∀ e ∈ h, e.flushed = some (.ok ⟨false⟩) →
    e.after.writerPaused = false ∧ e.after.buffered = e.before.buffered ∧
      (e.before.buffered < options.pauseThreshold ∨ e.before.buffered ≤ options.resumeThreshold ∨
        options.pauseThreshold = 0)
  /-- A pause is counted only by a flush that finds the pause threshold reached. -/
  paused : ∀ e ∈ h, e.after.pauses ≠ e.before.pauses →
    e.access = .writer (.flush .checking) ∧ e.after.pauses = e.before.pauses + 1 ∧
      0 < options.pauseThreshold ∧ options.pauseThreshold ≤ e.before.buffered
  /-- A resumption is counted only by a flush that lets the writer go on. -/
  resumed : ∀ e ∈ h, e.after.resumes ≠ e.before.resumes →
    e.flushed = some (.ok ⟨false⟩) ∧ e.after.resumes = e.before.resumes + 1 ∧
      e.before.buffered ≤ options.resumeThreshold
  /-- From a pause on, until its resumption has been counted, no flush that finds more than the
  resume threshold lets the writer go on. -/
  held : ∀ h₁ e₀ rest h₃, h = h₁ ++ e₀ :: rest ++ h₃ → e₀.after.pauses ≠ e₀.before.pauses →
    ∀ e ∈ e₀ :: rest, e.before.resumes = e₀.before.resumes →
      options.resumeThreshold < e.before.buffered → e.flushed ≠ some (.ok ⟨false⟩)
  /-- From a pause on, as long as more is buffered than the resume threshold, no flush lets the
  writer go on, and its resumption is not counted. -/
  above : ∀ h₁ e₀ rest h₃, h = h₁ ++ e₀ :: rest ++ h₃ → e₀.after.pauses ≠ e₀.before.pauses →
    (∀ e ∈ e₀ :: rest, options.resumeThreshold < e.before.buffered) →
      ∀ e ∈ e₀ :: rest, e.flushed ≠ some (.ok ⟨false⟩) ∧ e.after.writerPaused = true ∧
        e.after.resumes = e₀.before.resumes

/-- The pauses of a writer are counted once each, are resumed once each, and last until the reader
has caught up, in every run of a pipe. -/
theorem hysteresis (run : Run (create options) h p) : Paced options h p := by
  have at_event : ∀ {e}, e ∈ h → e.before.Balanced ∧ e.before.options = options ∧
      e.after.pauses ≤ p.pauses ∧ e.after.resumes ≤ p.resumes := by
    intro e he
    obtain ⟨h₁, h₂, rfl⟩ := List.append_of_mem he
    obtain ⟨before, after⟩ := run.split
    exact ⟨before.balanced, before.options_eq, after.counts_le⟩
  -- The access is the pause itself, or comes some time after it.
  have since : ∀ {h₁ e₀ rest h₃ e}, h = h₁ ++ e₀ :: rest ++ h₃ → e ∈ e₀ :: rest →
      e = e₀ ∨ ∃ s, s ⊆ rest ∧ Run e₀.after s e.before := by
    rintro h₁ e₀ rest h₃ e rfl he
    rcases List.mem_cons.mp he with rfl | he
    · exact .inl rfl
    · obtain ⟨s, t, rfl⟩ := List.append_of_mem he
      rw [List.append_assoc, List.cons_append] at run
      have after := run.split.2
      rw [List.append_assoc, List.cons_append] at after
      exact .inr ⟨s, List.subset_append_left _ _, after.split.1⟩
  have mem : ∀ {h₁ e₀ rest h₃ e}, h = h₁ ++ e₀ :: rest ++ h₃ → e ∈ e₀ :: rest → e ∈ h := by
    rintro h₁ e₀ rest h₃ e rfl he
    exact List.mem_append_left _ (List.mem_append_right _ he)
  have hb := run.balanced
  exact {
    counts := by
      rw [hb.counts]
      cases p.writerPaused <;> rfl
    grow := fun e he => ⟨e.counts_le.1, e.counts_le.2, (at_event he).2.2⟩
    unused := fun h0 => by
      have hz := hb.unused (run.options_eq ▸ h0)
      have hc := hb.counts
      refine ⟨?_, hz⟩
      cases hw : p.writerPaused with
      | false => rfl
      | true => rw [hz, hw] at hc; simp only [Bool.toNat_true] at hc; omega
    released := fun e he hf => by
      obtain ⟨hw, hn, hl, -⟩ := Event.after_of_flushed hf
      rw [(at_event he).2.1] at hl
      refine ⟨hw, hn, ?_⟩
      rcases hl with hl | hl | hl
      · exact .inr (.inr hl)
      · exact .inl hl
      · exact .inr (.inl hl)
    paused := fun e he hp => by
      obtain ⟨ha, hc, hu, hl, -⟩ := Event.of_paused hp
      rw [(at_event he).2.1] at hu hl
      exact ⟨ha, hc, hu, hl⟩
    resumed := fun e he hr => by
      obtain ⟨hf, hc, hl⟩ := Event.of_resumed hr
      rw [(at_event he).2.1] at hl
      exact ⟨hf, hc, hl⟩
    held := fun h₁ e₀ rest h₃ hh hp e he hr ha => by
      have ho := (at_event (mem hh he)).2.1
      have start := (at_event (mem hh (List.mem_cons_self ..))).1
      rcases since hh he with rfl | ⟨s, -, after⟩
      · have hq := (Event.of_paused hp).2.2.2.2
        rw [(hq.1 (hq.2 (ho.symm ▸ ha))).1]
        exact fun h => by cases h
      · exact (after.held start hp (at_event (mem hh he)).1 hr (ho.symm ▸ ha)).1
    above := fun h₁ e₀ rest h₃ hh hp ha e he => by
      have start := (at_event (mem hh (List.mem_cons_self ..))).1
      have above : ∀ e ∈ e₀ :: rest, e.before.options.resumeThreshold < e.before.buffered :=
        fun e he => (at_event (mem hh he)).2.1.symm ▸ ha e he
      have hq := (Event.of_paused hp).2.2.2.2
      have h₀ := hq.2 (above e₀ (List.mem_cons_self ..))
      rcases since hh he with rfl | ⟨s, hs, after⟩
      · rw [(hq.1 h₀).1]
        exact ⟨fun h => (by cases h), (hq.1 h₀).2, h₀⟩
      · have hr := after.resumes_eq fun e he => above e (List.mem_cons_of_mem _ (hs he))
        exact after.held start hp (at_event (mem hh he)).1 (hr.trans h₀) (above e he) }

/-- A writer is paused at four bytes and goes on at one. -/
def steep : PipeOptions := { pauseThreshold := 4, resumeThreshold := 1, minimumSegment := 1 }

/-- Five bytes are committed. -/
def fiveBytes : List Access := [.writer (.getMemory { blockSize := 8 } 8), .writer (.advance 5)]

def full : Pipe := performAll (create steep) fiveBytes

/-- A flush pauses the writer and is given up, and after two bytes have been consumed the next one
finds three, and waits. -/
def heldBack : List Access :=
  [.writer (.flush .checking), .writer (.abandonFlush .parking), .reader (.consume 2),
    .writer (.flush .checking)]

/-- Two more bytes are consumed, and a flush lets the writer go on. -/
def letGo : List Access := [.reader (.consume 2), .writer (.flush .checking)]

/-- The flush that finds three bytes, fewer than would pause the writer, does not let it go on, and
in the end one pause and one resumption have been counted. -/
theorem given_up_pause_holds :
    (∀ e ∈ trace full heldBack, e.flushed ≠ some (.ok ⟨false⟩)) ∧
      (full.performAll (heldBack ++ letGo)).pauses =
        (full.performAll (heldBack ++ letGo)).resumes + 0 ∧
      (full.performAll (heldBack ++ letGo)).resumes = 1 := by
  have run : Run (create steep) _ _ :=
    (run_trace _ fiveBytes).append (run_trace full (heldBack ++ letGo))
  have paced := hysteresis run
  have counts := paced.counts
  refine ⟨fun e he => ?_, counts, by decide⟩
  have above : ∀ e ∈ trace full heldBack, steep.resumeThreshold < e.before.buffered := by decide
  exact (paced.above (trace (create steep) fiveBytes) ⟨full, .writer (.flush .checking)⟩ _
    (trace (full.performAll heldBack) letGo) rfl (by decide) above e he).1

end Duplex.Pipe
