import Duplex.Proofs.Socket.Medium

/-!
# Calls under way

A call takes several looks, and between two of them anything may happen to the state. `Underway`
follows one call through its looks, and counts its moves.

A send gives out what it was made for, bit by bit. `Gives` says of one look that what it gives out
stood at the front of what was left to give, and that a send that succeeds has nothing left. So at
any time of a send, what it has given out and what is left are together what it began with
(`Underway.gives`). A send of several regions does so if its single sends do (`SendEach.gives`).
-/

namespace Duplex.Socket

open scoped Numbers

variable {κ σ τ α β ε : Type}

/-! ## Looks and what happens between them -/

/-- `Underway look Other start s n call t`: a call that stood at `start` in the state `s` has moved
`n` times, and stands at `call` in the state `t`. Between its looks the state has changed by
`Other`. -/
inductive Underway (look : κ → σ → Progress κ α × σ) (Other : σ → σ → Prop) (start : κ) (s : σ) :
    Nat → κ → σ → Prop
  | begun : Underway look Other start s 0 start s
  | other {n call t t'} (u : Underway look Other start s n call t) (h : Other t t') :
    Underway look Other start s n call t'
  | waited {n call t t'} (u : Underway look Other start s n call t)
    (h : look call t = (.pending, t')) : Underway look Other start s n call t'
  | moved {n call call' t t'} (u : Underway look Other start s n call t)
    (h : look call t = (.again call', t')) : Underway look Other start s (n + 1) call' t'

/-- Neither the looks at a call nor what happens between them end `P`. -/
structure Steady (look : κ → σ → Progress κ α × σ) (Other : σ → σ → Prop) (P : κ → σ → Prop) :
    Prop where
  other : ∀ {call t t'}, P call t → Other t t' → P call t'
  waited : ∀ {call t t'}, P call t → look call t = (.pending, t') → P call t'
  moved : ∀ {call call' t t'}, P call t → look call t = (.again call', t') → P call' t'

theorem steady_true (look : κ → σ → Progress κ α × σ) (Other : σ → σ → Prop) :
    Steady look Other fun _ _ => True :=
  ⟨fun _ _ => trivial, fun _ _ => trivial, fun _ _ => trivial⟩

namespace Underway

variable {look : κ → σ → Progress κ α × σ} {Other : σ → σ → Prop} {start call : κ} {s t : σ}
  {n : Nat} {P : κ → σ → Prop}

theorem steady (hP : Steady look Other P) (hs : P start s)
    (u : Underway look Other start s n call t) : P call t := by
  induction u with
  | begun => exact hs
  | other _ h ih => exact hP.other ih h
  | waited _ h ih => exact hP.waited ih h
  | moved _ h ih => exact hP.moved ih h

/-- A call whose moves all shorten what it has before it has no more moves than that. -/
theorem moves_le (ahead : κ → Nat) (hP : Steady look Other P) (hs : P start s)
    (hlook : ∀ {call call' t t'}, P call t → look call t = (.again call', t') →
      ahead call' < ahead call)
    (u : Underway look Other start s n call t) : n + ahead call ≤ ahead start := by
  induction u with
  | begun => omega
  | other _ _ ih => exact ih
  | waited _ _ ih => exact ih
  | moved u h ih =>
    have hlt := hlook (u.steady hP hs) h
    omega

end Underway

/-- A send that owes the same at every place says in the end that it has sent what it owed when it
began. -/
theorem Underway.total_eq {look : κ → σ → Progress κ (Except IoError Nat) × σ}
    {Other : σ → σ → Prop} {start call : κ} {s t t' : σ} {n total : Nat} {owed : κ → Nat}
    {disposed : σ → Bool} (hlook : ∀ call t, Pays owed (disposed t) call (look call t).1)
    (u : Underway look Other start s n call t) (h : look call t = (.done (.ok total), t')) :
    total = owed start := by
  have ho : owed call = owed start := by
    clear h
    induction u with
    | begun => rfl
    | other _ _ ih => exact ih
    | waited _ _ ih => exact ih
    | @moved _ call _ t _ _ h ih =>
      have hp := hlook call t
      rw [h] at hp
      exact Eq.trans hp ih
  have hp := hlook call t
  rw [h] at hp
  exact Eq.trans hp ho

/-- A call that never waits, and whose moves all shorten what it has before it, comes to its end if
it is looked at often enough. -/
theorem exists_poll {look : κ → σ → Progress κ α × σ} {P : κ → σ → Prop} {ahead : κ → Nat}
    (hmoved : ∀ {call call' t t'}, P call t → look call t = (.again call', t') →
      P call' t' ∧ ahead call' < ahead call)
    (hwaits : ∀ {call t t'}, P call t → look call t ≠ (.pending, t')) {call : κ} {t : σ}
    (h : P call t) :
    ∃ looks call' t' result t'', Progress.poll look looks call t = (.inr result, t'') ∧
      P call' t' ∧ look call' t' = (.done result, t'') := by
  induction hk : ahead call using Nat.strongRecOn generalizing call t with
  | ind k ih =>
    generalize hl : look call t = x
    obtain ⟨_ | call' | result, t'⟩ := x
    · exact absurd hl (hwaits h)
    · obtain ⟨hm, hlt⟩ := hmoved h hl
      obtain ⟨looks, call'', t'', result, t₃, hp, hend⟩ := ih _ (hk ▸ hlt) hm rfl
      refine ⟨looks + 1, call'', t'', result, t₃, ?_, hend⟩
      rw [Progress.poll, hl]
      exact hp
    · refine ⟨1, call, t, result, t', ?_, h, hl⟩
      rw [Progress.poll, hl]

/-! ## Giving out -/

/-- One look at a call that gives things out: `given` lists what has been given out, and `left` what
is left to give. -/
def Gives (given : σ → List β) (left : κ → List β) (call : κ) (s : σ) :
    Progress κ (Except ε α) × σ → Prop
  | (.pending, t) => given t = given s
  | (.again call', t) => ∃ out, given t = given s ++ out ∧ left call = out ++ left call'
  | (.done (.ok _), t) => given t = given s ∧ left call = []
  | (.done (.error _), t) => given t = given s

section Giving

variable {look : κ → σ → Progress κ (Except ε α) × σ} {Other : σ → σ → Prop} {start call : κ}
  {s t : σ} {n : Nat} {P : κ → σ → Prop} {given : σ → List β} {left : κ → List β}

/-- What a call has given out, and what is left, are what was left when it began. -/
theorem Underway.gives (hP : Steady look Other P) (hs : P start s)
    (hother : ∀ {t t'}, Other t t' → given t' = given t)
    (hlook : ∀ {call t}, P call t → Gives given left call t (look call t))
    (u : Underway look Other start s n call t) :
    ∃ out, given t = given s ++ out ∧ left start = out ++ left call := by
  induction u with
  | begun => exact ⟨[], (List.append_nil _).symm, rfl⟩
  | other _ h ih =>
    obtain ⟨out, ho, hl⟩ := ih
    exact ⟨out, (hother h).trans ho, hl⟩
  | waited u h ih =>
    obtain ⟨out, ho, hl⟩ := ih
    have hg := hlook (u.steady hP hs)
    rw [h] at hg
    exact ⟨out, Eq.trans hg ho, hl⟩
  | moved u h ih =>
    obtain ⟨out, ho, hl⟩ := ih
    have hg := hlook (u.steady hP hs)
    rw [h] at hg
    obtain ⟨more, hm, hc⟩ := hg
    refine ⟨out ++ more, ?_, ?_⟩
    · rw [hm, ho, List.append_assoc]
    · rw [hl, hc, List.append_assoc]

end Giving

/-- What a send of several regions has left to give, by what its single sends have: `plan` is what a
region becomes. -/
def SendEach.left (plan : Bytes → List β) (left : τ → List β) (call : SendEach τ) : List β :=
  call.current.elim [] left ++ call.waiting.flatMap plan

section SendEach

variable {send : Bytes → σ → τ × σ} {look : τ → σ → Progress τ (Except IoError Nat) × σ} {s : σ}

theorem SendEach.gives {given : σ → List β} {left : τ → List β} {plan : Bytes → List β}
    (hsend : ∀ region, given (send region s).2 = given s ∧ left (send region s).1 = plan region)
    (hlook : ∀ call, Gives given left call s (look call s)) (call : SendEach τ) :
    Gives given (SendEach.left plan left) call s (call.poll send look s) := by
  have hp := SendEach.polled send look call s
  generalize call.poll send look s = x at hp
  cases hp with
  | ended hc hw => exact ⟨rfl, by simp [SendEach.left, hc, hw]⟩
  | @begun region _ hc hw =>
    obtain ⟨hg, hl⟩ := hsend region
    exact ⟨[], by rw [List.append_nil]; exact hg, by simp [SendEach.left, hc, hw, hl]⟩
  | @waited current _ hc hl | @failed current _ _ hc hl =>
    have h := hlook current
    rw [hl] at h
    exact h
  | @moved current _ _ hc hl =>
    have h := hlook current
    rw [hl] at h
    obtain ⟨out, hg, hl⟩ := h
    exact ⟨out, hg, by simp [SendEach.left, hc, hl]⟩
  | @sent current _ _ hc hl =>
    have h := hlook current
    rw [hl] at h
    obtain ⟨hg, hl⟩ := h
    exact ⟨[], by rw [List.append_nil]; exact hg, by simp [SendEach.left, hc, hl]⟩

/-- A bound on the moves of a send of several regions, by what its single sends have before them:
`fresh` is what the send of a region begins with. -/
def SendEach.ahead (fresh : Bytes → Nat) (ahead : τ → Nat) (call : SendEach τ) : Nat :=
  call.current.elim 0 (ahead · + 1) + (call.waiting.map (fresh · + 2)).sum

theorem SendEach.ahead_lt {fresh : Bytes → Nat} {ahead : τ → Nat} {call call' : SendEach τ} {t : σ}
    (hsend : ∀ region, ahead (send region s).1 = fresh region)
    (hlook : ∀ {current next t}, look current s = (.again next, t) → ahead next < ahead current)
    (h : call.poll send look s = (.again call', t)) :
    SendEach.ahead fresh ahead call' < SendEach.ahead fresh ahead call := by
  have hp := SendEach.polled send look call s
  rw [h] at hp
  cases hp with
  | begun hc hw =>
    simp only [SendEach.ahead, hc, hw, Option.elim_none, Option.elim_some, List.map_cons,
      List.sum_cons, hsend]
    omega
  | moved hc hl =>
    have hlt := hlook hl
    simp only [SendEach.ahead, hc, Option.elim_some]
    omega
  | sent hc hl =>
    simp only [SendEach.ahead, hc, Option.elim_some, Option.elim_none]
    omega

end SendEach

end Duplex.Socket
