import Mathlib.Data.List.Basic

/-! Runs of a partial step function, runs whose steps all meet a condition, and
the induction every result about whole runs goes through. -/
namespace Machine
universe u v
variable {σ : Type u} {α : Type v} (step : σ → α → Option σ)

def exec (s : σ) : List α → Option σ
  | [] => some s
  | a :: as => (step s a).bind fun s' => exec s' as

def Along (ok : σ → α → Prop) (s : σ) : List α → Prop
  | [] => True
  | a :: as => ok s a ∧ ∀ s', step s a = some s' → Along ok s' as

/-- How many steps of the run count, each judged in the state in which it is taken. -/
def occurrences (p : σ → α → Bool) (s : σ) : List α → Nat
  | [] => 0
  | a :: as => (step s a).elim 0 fun s' => (if p s a then 1 else 0) + occurrences p s' as

variable {step}
variable {ok ok' : σ → α → Prop} {as : List α} {I : σ → Prop}

theorem along_cons {s : σ} {a : α} :
    Along step ok s (a :: as) ↔
      ok s a ∧ (step s a).elim True fun s' => Along step ok s' as := by
  cases h : step s a <;> simp [Along, h]

instance decidableAlong {ok : σ → α → Prop} [∀ s a, Decidable (ok s a)] :
    (s : σ) → (as : List α) → Decidable (Along step ok s as)
  | _, [] => isTrue trivial
  | s, a :: as =>
    have : Decidable ((step s a).elim True fun s' => Along step ok s' as) :=
      match step s a with
      | none => isTrue trivial
      | some s' => decidableAlong s' as
    decidable_of_iff _ along_cons.symm

theorem exec_cons {s s'' : σ} {a : α} (h : exec step s (a :: as) = some s'') :
    ∃ s', step s a = some s' ∧ exec step s' as = some s'' :=
  Option.bind_eq_some_iff.mp h

theorem exec_append (as bs : List α) :
    ∀ s : σ, exec step s (as ++ bs) = (exec step s as).bind fun s' => exec step s' bs := by
  induction as with
  | nil => exact fun _ => rfl
  | cons a as ih =>
    intro s
    cases h : step s a <;> simp [exec, h, ih]

theorem along_iff (as : List α) : ∀ s : σ, Along step ok s as ↔
    ∀ before a after s', as = before ++ a :: after → exec step s before = some s' → ok s' a := by
  induction as with
  | nil =>
    intro s
    constructor
    · intro _ before a after s' h
      simp at h
    · exact fun _ => trivial
  | cons b as ih =>
    intro s
    constructor
    · intro h before a after s' has he
      cases before with
      | nil =>
        obtain ⟨rfl, rfl⟩ := List.cons.inj has
        exact Option.some.inj he ▸ h.1
      | cons c before =>
        obtain ⟨rfl, has'⟩ := List.cons.inj has
        obtain ⟨s₁, hb, he⟩ := exec_cons he
        exact (ih s₁).mp (h.2 s₁ hb) before a after s' has' he
    · intro h
      refine ⟨h [] b as s rfl rfl, fun s₁ hb => (ih s₁).mpr ?_⟩
      intro before a after s' has he
      refine h (b :: before) a after s' (by rw [has, List.cons_append]) ?_
      simpa [exec, hb] using he

theorem along_append {bs : List α} : ∀ {s : σ}, Along step ok s (as ++ bs) ↔
    Along step ok s as ∧ ∀ s', exec step s as = some s' → Along step ok s' bs := by
  induction as with
  | nil =>
    intro s
    simp [Along, exec]
  | cons a as ih =>
    intro s
    rw [List.cons_append, along_cons, along_cons]
    cases ha : step s a with
    | none => simp [exec, ha]
    | some s' => simp [exec, ha, ih, and_assoc]

/-- A run of a step that is always taken. -/
theorem exec_total (f : σ → α → σ) (as : List α) :
    ∀ s : σ, exec (fun s a => some (f s a)) s as = some (as.foldl f s) := by
  induction as with
  | nil => exact fun _ => rfl
  | cons a as ih => exact fun s => ih (f s a)

/-- What each step of a conditioned run preserves, the whole run preserves. -/
theorem invariant_along (hstep : ∀ s a s', I s → ok s a → step s a = some s' → I s') :
    ∀ {s s' : σ}, I s → Along step ok s as → exec step s as = some s' → I s' := by
  induction as with
  | nil =>
    intro s s' hi _ he
    exact Option.some.inj he ▸ hi
  | cons a as ih =>
    intro s s'' hi hok he
    obtain ⟨s', ha, he⟩ := exec_cons he
    exact ih (hstep s a s' hi hok.1 ha) (hok.2 s' ha) he

theorem along_of_invariant (hstep : ∀ s a s', I s → ok s a → step s a = some s' → I s')
    (hok : ∀ s a, I s → ok s a → ok' s a) (as : List α) :
    ∀ s : σ, I s → Along step ok s as → Along step ok' s as := by
  induction as with
  | nil => exact fun _ _ _ => trivial
  | cons a as ih =>
    intro s hi h
    exact ⟨hok s a hi h.1, fun s' ha => ih s' (hstep s a s' hi h.1 ha) (h.2 s' ha)⟩

theorem invariant (hstep : ∀ s a s', I s → step s a = some s' → I s') :
    ∀ {s s' : σ}, I s → exec step s as = some s' → I s' := by
  induction as with
  | nil =>
    intro s s' hi he
    exact Option.some.inj he ▸ hi
  | cons a as ih =>
    intro s s'' hi he
    obtain ⟨s', ha, he⟩ := exec_cons he
    exact ih (hstep s a s' hi ha) he

/-- In a run that can be taken, conditions that agree on every step are met alike. -/
theorem along_congr (hiff : ∀ s a s', step s a = some s' → (ok s a ↔ ok' s a)) :
    ∀ {s s' : σ}, exec step s as = some s' → (Along step ok s as ↔ Along step ok' s as) := by
  induction as with
  | nil => exact fun _ => Iff.rfl
  | cons a as ih =>
    intro s s'' he
    obtain ⟨s', ha, he⟩ := exec_cons he
    rw [along_cons, along_cons, ha, hiff s a s' ha]
    exact and_congr_right fun _ => ih he

/-- Where each step keeps a law exactly if it meets the condition, a run does. -/
theorem law_iff_along {J : σ → Prop} (hstep : ∀ s a s', I s → step s a = some s' → I s' ∧ (J s' ↔ J s ∧ ok s a)) :
    ∀ {s s' : σ}, I s → exec step s as = some s' → (J s' ↔ J s ∧ Along step ok s as) := by
  induction as with
  | nil =>
    intro s s' _ he
    obtain rfl := Option.some.inj he
    exact ⟨fun hj => ⟨hj, trivial⟩, And.left⟩
  | cons a as ih =>
    intro s s'' hi he
    obtain ⟨s', ha, he⟩ := exec_cons he
    obtain ⟨hi', hj⟩ := hstep s a s' hi ha
    rw [ih hi' he, hj, along_cons, ha, Option.elim_some, and_assoc]

theorem along_true (as : List α) : ∀ s : σ, Along step (fun _ _ => True) s as := by
  induction as with
  | nil => exact fun _ => trivial
  | cons a as ih => exact fun s => ⟨trivial, fun s' _ => ih s'⟩

theorem along_and : ∀ {s : σ}, Along step ok s as → Along step ok' s as →
    Along step (fun s a => ok s a ∧ ok' s a) s as := by
  induction as with
  | nil => exact fun _ _ => trivial
  | cons a as ih => exact fun h h' => ⟨⟨h.1, h'.1⟩, fun s' ha => ih (h.2 s' ha) (h'.2 s' ha)⟩

/-- A condition on the action alone, met by every action of the run. -/
theorem along_of_forall {ok : α → Prop} (as : List α) (h : ∀ a ∈ as, ok a) :
    ∀ s : σ, Along step (fun _ a => ok a) s as := by
  induction as with
  | nil => exact fun _ => trivial
  | cons a as ih =>
    exact fun s => ⟨h a List.mem_cons_self, fun s' _ => ih (fun b hb => h b (List.mem_cons_of_mem a hb)) s'⟩

/-- A count that never exceeds a bound which every counted step uses up. -/
theorem occurrences_le_along {p : σ → α → Bool} {left : σ → Nat}
    (hstep : ∀ s a s', I s → ok s a → step s a = some s' →
      I s' ∧ (if p s a then 1 else 0) + left s' ≤ left s) (as : List α) :
    ∀ s, I s → Along step ok s as → occurrences step p s as ≤ left s := by
  induction as with
  | nil =>
    intro s _ _
    exact Nat.zero_le _
  | cons a as ih =>
    intro s hi hok
    cases ha : step s a with
    | none => simp [occurrences, ha]
    | some s' =>
      obtain ⟨hi', hle⟩ := hstep s a s' hi hok.1 ha
      have := ih s' hi' (hok.2 s' ha)
      simp only [occurrences, ha, Option.elim_some]
      omega

theorem occurrences_le {p : σ → α → Bool} {left : σ → Nat} (hstep : ∀ s a s', I s → step s a = some s' →
      I s' ∧ (if p s a then 1 else 0) + left s' ≤ left s) (as : List α) (s : σ) (hi : I s) :
    occurrences step p s as ≤ left s :=
  occurrences_le_along (fun s a s' hi _ ha => hstep s a s' hi ha) as s hi (along_true as s)

end Machine
