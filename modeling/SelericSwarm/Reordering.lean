import Mathlib.Data.List.Induction
import Mathlib.Data.List.Perm.Basic

/-! Folds over events that arrive out of order, and registers that some of the events write.
Nothing is said of what the events are. -/
namespace Reordering
open List
universe u v w
variable {σ : Type u} {ε : Type v}

section Folds
variable (act : σ → ε → σ) (I : σ → Prop)

/-- In the states that matter, the two events may come in either order. -/
def Commute (e f : ε) : Prop := ∀ s, I s → act (act s e) f = act (act s f) e

variable {act I} {e : ε} {es ts : List ε} {s : σ}

theorem foldl_kept (hI : ∀ s e, I s → I (act s e)) (hs : I s) : I (es.foldl act s) := by
  induction es generalizing s with
  | nil => exact hs
  | cons f es ih => exact ih (hI s f hs)

/-- An event that commutes with all of them may as well have come before them. -/
theorem foldl_pass (hI : ∀ s e, I s → I (act s e)) (h : ∀ f ∈ es, Commute act I e f) (hs : I s) :
    act (es.foldl act s) e = es.foldl act (act s e) := by
  induction es generalizing s with
  | nil => rfl
  | cons f es ih =>
    rw [foldl_cons, ih (fun g hg => h g (mem_cons_of_mem f hg)) (hI s f hs), foldl_cons,
      h f mem_cons_self s hs]

/-- If each event commutes with those before it that belong behind it, the fold is that in order. -/
theorem foldl_eq_of_sorted {r : ε → ε → Prop} (hI : ∀ s e, I s → I (act s e)) (hs : I s) (hperm : es.Perm ts)
    (hsorted : ts.Pairwise r) (h : es.Pairwise fun f e => r e f → Commute act I e f) :
    es.foldl act s = ts.foldl act s := by
  induction es using List.reverseRecOn generalizing ts with
  | nil => rw [hperm.nil_eq]
  | append_singleton es e ih =>
    obtain ⟨before, after, rfl⟩ := append_of_mem (hperm.mem_iff.mp (mem_append_right es mem_cons_self))
    obtain ⟨hes, -, hlast⟩ := pairwise_append.mp h
    have hrest : es.Perm (before ++ after) :=
      (((perm_append_singleton e es).symm.trans hperm).trans perm_middle).cons_inv
    have hbehind := (pairwise_cons.mp (pairwise_append.mp hsorted).2.1).1
    have hpass : ∀ f ∈ after, Commute act I e f := fun f hf =>
      hlast f (hrest.mem_iff.mpr (mem_append_right before hf)) e mem_cons_self (hbehind f hf)
    have hkept : I (before.foldl act s) := foldl_kept hI hs
    calc (es ++ [e]).foldl act s
      _ = act (es.foldl act s) e := foldl_concat ..
      _ = act ((before ++ after).foldl act s) e := by
        rw [ih hrest (hsorted.sublist ((sublist_cons_self e after).append_left before)) hes]
      _ = act (after.foldl act (before.foldl act s)) e := by rw [foldl_append]
      _ = after.foldl act (act (before.foldl act s) e) := foldl_pass hI hpass hkept
      _ = (before ++ e :: after).foldl act s := by rw [foldl_append, foldl_cons]

theorem foldl_comm {τ δ : Type*} {f : τ → ε → τ} {g : τ → δ → τ} {ds : List δ}
    (h : ∀ e ∈ es, ∀ d ∈ ds, ∀ t, g (f t e) d = f (g t d) e) :
    ∀ t, ds.foldl g (es.foldl f t) = es.foldl f (ds.foldl g t) := by
  have hone : ∀ e ∈ es, ∀ t, ds.foldl g (f t e) = f (ds.foldl g t) e := by
    intro e he
    have hds := h e he
    clear h
    induction ds with
    | nil => exact fun _ => rfl
    | cons d ds ih =>
      intro t
      rw [foldl_cons, hds d mem_cons_self, ih fun d' hd' => hds d' (mem_cons_of_mem d hd')]
      rfl
  clear h
  induction es with
  | nil => exact fun _ => rfl
  | cons e es ih =>
    intro t
    rw [foldl_cons, ih (fun e' he' => hone e' (mem_cons_of_mem e he')), hone e mem_cons_self]
    rfl

end Folds

section Registers
variable {α : Type w} (write : ε → Option α) {es : List ε}

/-- What stands in the register after the events. -/
def written (a : α) (es : List ε) : α := es.foldl (fun a e => (write e).getD a) a

variable {write}

theorem written_cons (a : α) (e : ε) (es : List ε) : written write a (e :: es) = written write ((write e).getD a) es :=
  rfl

theorem written_of_none (h : ∀ e ∈ es, write e = none) (a : α) : written write a es = a := by
  induction es with
  | nil => rfl
  | cons e es ih =>
    rw [written, foldl_cons, h e mem_cons_self]
    exact ih fun f hf => h f (mem_cons_of_mem e hf)

/-- Once an event has written it, nothing is left of what was there before. -/
theorem written_forget (h : ∃ e ∈ es, (write e).isSome) (a b : α) : written write a es = written write b es := by
  obtain ⟨e, he, hsome⟩ := h
  obtain ⟨before, after, rfl⟩ := append_of_mem he
  obtain ⟨c, hc⟩ := Option.isSome_iff_exists.mp hsome
  simp [written, hc]

/-- A write that comes after the events may as well have come before them, if none of them writes or it
changes nothing. -/
theorem written_pass (write : ε → Option α) (es : List ε) (new : Option α) (a : α)
    (h : (∀ e ∈ es, write e = none) ∨ ∀ b ∈ new, b = written write a es) :
    new.getD (written write a es) = written write (new.getD a) es := by
  cases new with
  | none => rfl
  | some b =>
    by_cases hnone : ∀ e ∈ es, write e = none
    · rw [written_of_none hnone, written_of_none hnone]
    · have hb := (h.resolve_left hnone) b rfl
      push Not at hnone
      obtain ⟨e, he, hne⟩ := hnone
      exact hb.trans (written_forget ⟨e, he, Option.isSome_iff_ne_none.mpr hne⟩ a b)

end Registers
end Reordering
