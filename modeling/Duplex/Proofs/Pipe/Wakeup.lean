import Duplex.Proofs.Pipe.Access

/-!
# Wake-ups of a pipe

A flush sleeps while its writer is blocked (`WriterBlocked`), a read while its reader is
(`ReaderBlocked`). `Guards` is what ties a call to the place where it sleeps: whoever is asleep
there is blocked, and who is about to fall asleep is blocked or will find a permit. Looks of the
call itself keep it (`Guards.flush`, `Guards.read`), and so does everyone else
(`guards_writable_perform`, `guards_readable_perform`), so a call that cannot move is blocked.
-/

namespace Duplex.Pipe

/-- A flush has nothing to report: too much is buffered, and the reader may still take it. -/
structure WriterBlocked (p : Pipe) : Prop where
  paused : p.writerPaused = true
  buffered : p.options.resumeThreshold < p.buffered
  reader : p.readerCompleted = false

/-- A read has nothing to report. -/
structure ReaderBlocked (p : Pipe) : Prop where
  buffered : p.buffered = 0
  writer : p.writerCompleted = false
  error : p.writerError = none
  canceled : p.readCanceled = false

theorem WriterBlocked.congr {p q : Pipe} (h : p.WriterBlocked)
    (hp : q.writerPaused = p.writerPaused) (ho : q.options = p.options)
    (hb : q.buffered = p.buffered) (hr : q.readerCompleted = p.readerCompleted) :
    q.WriterBlocked :=
  ⟨hp.trans h.paused, by rw [ho, hb]; exact h.buffered, hr.trans h.reader⟩

theorem ReaderBlocked.congr {p q : Pipe} (h : p.ReaderBlocked) (hb : q.buffered = p.buffered)
    (hw : q.writerCompleted = p.writerCompleted) (he : q.writerError = p.writerError)
    (hc : q.readCanceled = p.readCanceled) : q.ReaderBlocked :=
  ⟨hb.trans h.buffered, hw.trans h.writer, he.trans h.error, hc.trans h.canceled⟩

/-- What holds of the place `n` where `call` sleeps, if it is a call, while `blocked`. -/
def Guards (n : Notify) (call : Option Await) (blocked : Prop) : Prop :=
  match call with
  | none | some .checking => n.sleeper = .absent
  | some .parking => n.sleeper = .absent ∧ (n.permit = true ∨ blocked)
  | some .parked => n.sleeper = .woken ∨ n.sleeper = .asleep ∧ n.permit = false ∧ blocked

variable {n : Notify} {call : Option Await} {blocked : Prop}

theorem Guards.mono {blocked' : Prop} (h : Guards n call blocked) (hb : blocked → blocked') :
    Guards n call blocked' := by
  match call with
  | none | some .checking => exact h
  | some .parking => exact ⟨h.1, h.2.imp id hb⟩
  | some .parked => exact h.imp id fun h => ⟨h.1, h.2.1, hb h.2.2⟩

/-- After a wake-up nobody has to be blocked. -/
theorem Guards.notifyOne {blocked' : Prop} (h : Guards n call blocked) :
    Guards n.notifyOne call blocked' := by
  match call with
  | none | some .checking =>
    have ha : n.sleeper = .absent := h
    simp only [Notify.notifyOne, ha]; rfl
  | some .parking =>
    have ha : n.sleeper = .absent := h.1
    simp only [Notify.notifyOne, ha]; exact ⟨rfl, .inl rfl⟩
  | some .parked =>
    rcases h with ha | ⟨ha, -⟩ <;> simp only [Notify.notifyOne, ha] <;> exact .inl rfl

theorem Guards.enter (h : Guards n (some .parking) blocked) :
    Guards n.enter.2 (some (if n.enter.1 then .checking else .parked)) blocked := by
  obtain ⟨ha, hp⟩ := h
  cases hn : n.permit with
  | true => simp only [Notify.enter, hn, if_true]; exact ha
  | false =>
    have hb : blocked := hp.resolve_left (by simp [hn])
    simp only [Notify.enter, hn, Bool.false_eq_true, if_false]
    exact .inr ⟨rfl, rfl, hb⟩

theorem Guards.resume {n' : Notify} {blocked' : Prop} (hn : n.resume? = some n') :
    Guards n' (some .checking) blocked' := by
  simp only [Notify.resume?] at hn
  split at hn <;> cases hn
  rfl

theorem Guards.blocked_of_asleep (h : Guards n (some .parked) blocked) (hn : n.resume? = none) :
    blocked := by
  rcases h with ha | ⟨-, -, hb⟩
  · simp [Notify.resume?, ha] at hn
  · exact hb

/-! ## The looks of a flush -/

theorem checkFlush_none {p : Pipe} (h : p.checkFlush.1 = none) : p.checkFlush.2.WriterBlocked := by
  cases hr : p.readerCompleted with
  | true => cases he : p.readerError <;> simp [checkFlush, hr, he] at h
  | false =>
    simp only [checkFlush, hr, Bool.false_eq_true, if_false] at h ⊢
    split at h
    · cases h
    · rename_i hw
      rw [if_neg hw]
      have hb : ¬ p.buffered ≤ p.options.resumeThreshold := by
        intro hb
        cases hp : p.writerPaused <;> simp [hp, hb] at h
      cases hp : p.writerPaused <;> simp only [Bool.false_eq_true, if_false, if_true, if_neg hb]
      · exact ⟨rfl, Nat.not_le.mp hb, rfl⟩
      · exact ⟨hp, Nat.not_le.mp hb, hr⟩

/-- A flush keeps what ties it to its place, where `o` is another excuse for a caller to sleep. -/
theorem Guards.flush_or {p : Pipe} {call : Await} {o : Prop}
    (h : Guards p.writable (some call) (p.WriterBlocked ∨ o)) :
    match p.flush call with
    | (.pending, _) => (p.WriterBlocked ∨ o) ∧ call = .parked
    | (.again call, q) => Guards q.writable (some call) (q.WriterBlocked ∨ o)
    | (.done _, q) => Guards q.writable none (q.WriterBlocked ∨ o) := by
  cases call with
  | checking =>
    have hw : p.checkFlush.2.writable = p.writable := by
      obtain ⟨_, _, _, _, e⟩ := p.checkFlush_frame; rw [e]
    have ha : p.writable.sleeper = .absent := h
    have hn := checkFlush_none (p := p)
    simp only [Pipe.flush]
    generalize p.checkFlush = x at hw hn
    obtain ⟨_ | _, q⟩ := x
    · exact ⟨(congrArg Notify.sleeper hw).trans ha, .inr (.inl (hn rfl))⟩
    · exact (congrArg Notify.sleeper hw).trans ha
  | parking => exact h.enter.mono fun hb => hb.imp_left fun hb => hb.congr rfl rfl rfl rfl
  | parked =>
    simp only [Pipe.flush]
    cases hn : p.writable.resume? with
    | none => exact ⟨h.blocked_of_asleep hn, trivial⟩
    | some n => exact Guards.resume hn

theorem Guards.flush {p : Pipe} {call : Await}
    (h : Guards p.writable (some call) p.WriterBlocked) :
    match p.flush call with
    | (.pending, _) => p.WriterBlocked ∧ call = .parked
    | (.again call, q) => Guards q.writable (some call) q.WriterBlocked
    | (.done _, q) => Guards q.writable none q.WriterBlocked := by
  have ho : Guards p.writable (some call) (p.WriterBlocked ∨ False) := h.mono .inl
  simpa only [or_false] using ho.flush_or

/-! ## The looks of a read -/

theorem checkRead_none {p : Pipe} (h : p.checkRead.1 = none) :
    p.checkRead.2 = p ∧ p.ReaderBlocked := by
  simp only [checkRead] at h ⊢
  split at h
  · cases h
  · rename_i he
    split at h
    · cases h
    · rename_i hc
      split at h
      · cases h
      · rename_i hb
        rw [if_neg hc, if_neg hb]
        simp only [not_or, Nat.not_lt, Nat.le_zero, Bool.not_eq_true] at hb
        exact ⟨rfl, hb.1, hb.2, he, by simpa using hc⟩

/-- A read keeps what ties it to its place, where `o` is another excuse for a caller to sleep. -/
theorem Guards.read_or {p : Pipe} {call : Await} {o : Prop}
    (h : Guards p.readable (some call) (p.ReaderBlocked ∨ o)) :
    match p.read call with
    | (.pending, _) => (p.ReaderBlocked ∨ o) ∧ call = .parked
    | (.again call, q) => Guards q.readable (some call) (q.ReaderBlocked ∨ o)
    | (.done _, q) => Guards q.readable none (q.ReaderBlocked ∨ o) := by
  cases call with
  | checking =>
    have hr : p.checkRead.2.readable = p.readable := by
      obtain ⟨_, _, e⟩ := p.checkRead_frame; rw [e]
    have ha : p.readable.sleeper = .absent := h
    have hn := checkRead_none (p := p)
    simp only [Pipe.read]
    generalize p.checkRead = x at hr hn
    obtain ⟨_ | _, q⟩ := x
    · obtain ⟨rfl, hb⟩ := hn rfl
      exact ⟨ha, .inr (.inl hb)⟩
    · exact (congrArg Notify.sleeper hr).trans ha
  | parking => exact h.enter.mono fun hb => hb.imp_left fun hb => hb.congr rfl rfl rfl rfl
  | parked =>
    simp only [Pipe.read]
    cases hn : p.readable.resume? with
    | none => exact ⟨h.blocked_of_asleep hn, trivial⟩
    | some n => exact Guards.resume hn

theorem Guards.read {p : Pipe} {call : Await}
    (h : Guards p.readable (some call) p.ReaderBlocked) :
    match p.read call with
    | (.pending, _) => p.ReaderBlocked ∧ call = .parked
    | (.again call, q) => Guards q.readable (some call) q.ReaderBlocked
    | (.done _, q) => Guards q.readable none q.ReaderBlocked := by
  have ho : Guards p.readable (some call) (p.ReaderBlocked ∨ False) := h.mono .inl
  simpa only [or_false] using ho.read_or

/-! ## Everyone else -/

/-- Whether an access is one of a flush, which alone sleeps and wakes up as a writer. -/
def Access.ofFlush : Access → Bool
  | writer (.flush _) | writer (.abandonFlush _) => true
  | _ => false

/-- Whether an access is one of a read. -/
def Access.ofRead : Access → Bool
  | reader (.read _) | reader (.readChunk _) | reader (.abandonRead _) => true
  | _ => false

/-- What a commit does to the reading end: nothing, or it wakes it. -/
theorem readable_advance (p : Pipe) (count : Nat) :
    (p.advance count).readable = p.readable ∧ (p.advance count).buffered = p.buffered ∨
      (p.advance count).readable = p.readable.notifyOne := by
  simp only [advance]
  split
  · exact .inl ⟨rfl, rfl⟩
  · split
    · exact .inl ⟨rfl, rfl⟩
    · exact .inr rfl

theorem guards_readable_advance {p : Pipe} (h : Guards p.readable call p.ReaderBlocked)
    (count : Nat) : Guards (p.advance count).readable call (p.advance count).ReaderBlocked := by
  obtain ⟨_, _, _, _, e⟩ := p.advance_frame count
  rcases p.readable_advance count with ⟨hr, hb⟩ | hr <;> rw [hr]
  · exact h.mono fun h => h.congr hb (by rw [e]) (by rw [e]) (by rw [e])
  · exact h.notifyOne

/-- Whoever does not read keeps what holds of the place where reads sleep. -/
theorem guards_readable_perform (a : Access) (ha : a.ofRead = false) {p : Pipe}
    (h : Guards p.readable call p.ReaderBlocked) :
    Guards (a.perform p).readable call (a.perform p).ReaderBlocked := by
  rcases a with (⟨pool, request⟩ | _ | count | ⟨pool, data⟩ | place | place | _) |
    (_ | _ | _ | count | _) | _
  case writer.getMemory =>
    obtain ⟨_, e⟩ := p.getMemory_frame pool request
    simp only [Access.perform, WriterAccess.perform, e]
    exact h.mono fun hb => hb.congr rfl rfl rfl rfl
  case writer.fill => exact h.mono fun hb => hb.congr rfl rfl rfl rfl
  case writer.advance => exact guards_readable_advance h count
  case writer.write =>
    refine write_induct (P := fun q => Guards q.readable call q.ReaderBlocked) pool ?_ ?_ ?_ p
      data h
    · intro q request hq
      obtain ⟨_, e⟩ := q.getMemory_frame pool request
      rw [e]; exact hq.mono fun hb => hb.congr rfl rfl rfl rfl
    · intro q offset data hq; exact hq.mono fun hb => hb.congr rfl rfl rfl rfl
    · intro q count hq; exact guards_readable_advance hq count
  case writer.flush =>
    obtain ⟨_, _, _, _, _, e⟩ := p.flush_frame place
    simp only [Access.perform, WriterAccess.perform, e]
    exact h.mono fun hb => hb.congr rfl rfl rfl rfl
  case writer.abandonFlush =>
    obtain ⟨_, e⟩ := p.abandonFlush_frame place
    simp only [Access.perform, WriterAccess.perform, e]
    exact h.mono fun hb => hb.congr rfl rfl rfl rfl
  case writer.complete =>
    simp only [Access.perform, WriterAccess.perform, completeWriter]
    split
    · exact h
    · exact h.notifyOne
  case reader.consume =>
    simp only [Access.perform, ReaderAccess.perform, consume]
    split
    · exact h
    · exact h.mono fun h =>
        h.congr (by simp only [h.buffered, Nat.min_zero, Nat.sub_zero]) rfl rfl rfl
  case reader.complete =>
    simp only [Access.perform, ReaderAccess.perform, completeReader]
    split
    · exact h
    · exact h.mono fun h => ⟨rfl, h.writer, h.error, h.canceled⟩
  case cancel => exact h.notifyOne
  all_goals cases ha

/-- A commit leaves the place where flushes sleep alone, and what is buffered only grows. -/
theorem guards_writable_advance {p : Pipe} (h : Guards p.writable call p.WriterBlocked)
    (count : Nat) : Guards (p.advance count).writable call (p.advance count).WriterBlocked := by
  simp only [advance]
  split
  · exact h
  · split
    · exact h.mono fun hb => hb.congr rfl rfl rfl rfl
    · exact h.mono fun h => ⟨h.paused, Nat.lt_add_right _ h.buffered, h.reader⟩

theorem guards_writable_consume {p : Pipe} (h : Guards p.writable call p.WriterBlocked)
    (count : Nat) : Guards (p.consume count).writable call (p.consume count).WriterBlocked := by
  simp only [consume]
  split
  · exact h
  · exact h.notifyOne

/-- Whoever does not flush keeps what holds of the place where flushes sleep. -/
theorem guards_writable_perform (a : Access) (ha : a.ofFlush = false) {p : Pipe}
    (h : Guards p.writable call p.WriterBlocked) :
    Guards (a.perform p).writable call (a.perform p).WriterBlocked := by
  rcases a with (⟨pool, request⟩ | _ | count | ⟨pool, data⟩ | _ | _ | _) |
    (place | place | place | count | _) | _
  case writer.getMemory =>
    obtain ⟨_, e⟩ := p.getMemory_frame pool request
    simp only [Access.perform, WriterAccess.perform, e]
    exact h.mono fun hb => hb.congr rfl rfl rfl rfl
  case writer.fill => exact h.mono fun hb => hb.congr rfl rfl rfl rfl
  case writer.advance => exact guards_writable_advance h count
  case writer.write =>
    refine write_induct (P := fun q => Guards q.writable call q.WriterBlocked) pool ?_ ?_ ?_ p
      data h
    · intro q request hq
      obtain ⟨_, e⟩ := q.getMemory_frame pool request
      rw [e]; exact hq.mono fun hb => hb.congr rfl rfl rfl rfl
    · intro q offset data hq; exact hq.mono fun hb => hb.congr rfl rfl rfl rfl
    · intro q count hq; exact guards_writable_advance hq count
  case writer.complete =>
    simp only [Access.perform, WriterAccess.perform, completeWriter]
    split
    · exact h
    · exact h.mono fun hb => hb.congr rfl rfl rfl rfl
  case reader.read =>
    obtain ⟨_, _, _, e⟩ := p.read_frame place
    simp only [Access.perform, ReaderAccess.perform, e]
    exact h.mono fun hb => hb.congr rfl rfl rfl rfl
  case reader.readChunk =>
    obtain ⟨_, _, _, e⟩ := p.read_frame place
    have hq : Guards (p.read place).2.writable call (p.read place).2.WriterBlocked := by
      rw [e]; exact h.mono fun hb => hb.congr rfl rfl rfl rfl
    rcases readChunk_snd place p with hs | hs <;>
      simp only [Access.perform, ReaderAccess.perform, hs]
    · exact hq
    · simp only [takeFront]
      split
      · exact hq
      · exact guards_writable_consume hq _
  case reader.abandonRead =>
    obtain ⟨_, e⟩ := p.abandonRead_frame place
    simp only [Access.perform, ReaderAccess.perform, e]
    exact h.mono fun hb => hb.congr rfl rfl rfl rfl
  case reader.consume => exact guards_writable_consume h count
  case reader.complete =>
    simp only [Access.perform, ReaderAccess.perform, completeReader]
    split
    · exact h
    · exact h.notifyOne
  case cancel => exact h.mono fun hb => hb.congr rfl rfl rfl rfl
  all_goals cases ha

/-! ## The mark of a paused writer -/

/-- Only flushes pause the writer and let it go on. -/
theorem writerPaused_perform (a : Access) (ha : a.ofFlush = false) (p : Pipe) :
    (a.perform p).writerPaused = p.writerPaused := by
  rcases a with (⟨pool, request⟩ | _ | count | ⟨pool, data⟩ | _ | _ | _) |
    (place | place | place | count | _) | _
  case writer.getMemory =>
    obtain ⟨_, e⟩ := p.getMemory_frame pool request
    simp only [Access.perform, WriterAccess.perform, e]
  case writer.fill => rfl
  case writer.advance =>
    obtain ⟨_, _, _, _, e⟩ := p.advance_frame count
    simp only [Access.perform, WriterAccess.perform, e]
  case writer.write =>
    obtain ⟨_, _, _, _, e⟩ := p.write_frame pool data
    simp only [Access.perform, WriterAccess.perform, e]
  case writer.complete =>
    simp only [Access.perform, WriterAccess.perform, completeWriter]
    split <;> rfl
  case reader.read =>
    obtain ⟨_, _, _, e⟩ := p.read_frame place
    simp only [Access.perform, ReaderAccess.perform, e]
  case reader.readChunk =>
    obtain ⟨_, _, _, _, _, _, e⟩ := p.readChunk_frame place
    simp only [Access.perform, ReaderAccess.perform, e]
  case reader.abandonRead =>
    obtain ⟨_, e⟩ := p.abandonRead_frame place
    simp only [Access.perform, ReaderAccess.perform, e]
  case reader.consume =>
    obtain ⟨_, _, _, e⟩ := p.consume_frame count
    simp only [Access.perform, ReaderAccess.perform, e]
  case reader.complete =>
    simp only [Access.perform, ReaderAccess.perform, completeReader]
    split <;> rfl
  case cancel => rfl
  all_goals cases ha

theorem paused_of_checkFlush {p : Pipe} (hc : p.checkFlush.1 ≠ none)
    (hp : p.checkFlush.2.writerPaused = true) : p.checkFlush.2.readerCompleted = true := by
  cases hr : p.readerCompleted with
  | true =>
    obtain ⟨_, _, _, _, e⟩ := p.checkFlush_frame
    rw [e]; exact hr
  | false =>
    exfalso
    simp only [checkFlush, hr, Bool.false_eq_true, if_false] at hc hp
    split at hp
    · rename_i hw
      have hp : p.writerPaused = true := hp
      simp [hp] at hw
    · rename_i hw
      rw [if_neg hw] at hc
      by_cases hb : p.buffered ≤ p.options.resumeThreshold
      · cases hx : p.writerPaused <;> simp [hx, hb] at hp
      · cases hx : p.writerPaused <;> simp [hx, hb] at hc

/-- A flush that ends leaves the writer paused only if the reader has completed. -/
theorem paused_of_flush_done {call : Await} {p : Pipe} {x : Except ConnectionError FlushResult}
    (h : (p.flush call).1 = .done x) (hp : (p.flush call).2.writerPaused = true) :
    (p.flush call).2.readerCompleted = true := by
  cases call with
  | checking =>
    have hc := paused_of_checkFlush (p := p)
    simp only [flush] at h hp ⊢
    generalize p.checkFlush = y at h hp hc
    obtain ⟨_ | _, q⟩ := y
    · cases h
    · exact hc (by simp) hp
  | parking => simp [flush] at h
  | parked => simp only [flush] at h; split at h <;> cases h

end Duplex.Pipe
