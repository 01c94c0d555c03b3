/-
What a step ensures.

`Ensures P Q` says of a step that `P` holds of the world and the state it leads to, and `Q` of
the world and the result if it is the last one.  A wait leads nowhere and ensures everything;
`Proceeds P Q` says in addition that the step is no wait.
The parts of a larger task are taken one at a time: what the step of the whole ensures is what
the step of the part ensures of the places the whole sees it at (`ensures_inside`).
-/
import Rendezvous.Schedule

namespace Rendezvous
namespace Progress

variable {ω υ σ τ ρ ξ : Type}

/-- Wherever the step leads, `P` holds there, and `Q` if it ends the task. -/
def Ensures (P : ω → σ → Prop) (Q : ω → ρ → Prop) : Progress ω σ ρ → Prop
  | waits _ => True
  | goes w s => P w s
  | pauses w s => P w s
  | resumes w s => P w s
  | ends w r => Q w r

/-- The step is no wait, and wherever it leads, `P` holds there, and `Q` if it ends the task. -/
def Proceeds (P : ω → σ → Prop) (Q : ω → ρ → Prop) : Progress ω σ ρ → Prop
  | waits _ => False
  | goes w s => P w s
  | pauses w s => P w s
  | resumes w s => P w s
  | ends w r => Q w r

/-- Where a step leads that is neither a wait nor the last one. -/
def next? : Progress ω σ ρ → Option (ω × σ)
  | goes w s => some (w, s)
  | pauses w s => some (w, s)
  | resumes w s => some (w, s)
  | waits _ => none
  | ends .. => none

section
variable {P : ω → σ → Prop} {Q : ω → ρ → Prop}

@[simp] theorem ensures_waits (wake : Option Nat) :
    (waits wake : Progress ω σ ρ).Ensures P Q := trivial

@[simp] theorem ensures_goes (w : ω) (s : σ) :
    (goes w s : Progress ω σ ρ).Ensures P Q ↔ P w s := Iff.rfl

@[simp] theorem ensures_pauses (w : ω) (s : σ) :
    (pauses w s : Progress ω σ ρ).Ensures P Q ↔ P w s := Iff.rfl

@[simp] theorem ensures_resumes (w : ω) (s : σ) :
    (resumes w s : Progress ω σ ρ).Ensures P Q ↔ P w s := Iff.rfl

@[simp] theorem ensures_ends (w : ω) (r : ρ) :
    (ends w r : Progress ω σ ρ).Ensures P Q ↔ Q w r := Iff.rfl

end

theorem Ensures.mono {P P' : ω → σ → Prop} {Q Q' : ω → ρ → Prop} {p : Progress ω σ ρ}
    (h : p.Ensures P Q) (hP : ∀ w s, P w s → P' w s) (hQ : ∀ w r, Q w r → Q' w r) :
    p.Ensures P' Q' := by
  cases p with
  | waits wake => trivial
  | goes w s => exact hP w s h
  | pauses w s => exact hP w s h
  | resumes w s => exact hP w s h
  | ends w r => exact hQ w r h

theorem Ensures.and {P P' : ω → σ → Prop} {Q Q' : ω → ρ → Prop} {p : Progress ω σ ρ}
    (h : p.Ensures P Q) (h' : p.Ensures P' Q') :
    p.Ensures (fun w s => P w s ∧ P' w s) fun w r => Q w r ∧ Q' w r := by
  cases p with
  | waits wake => trivial
  | goes w s => exact ⟨h, h'⟩
  | pauses w s => exact ⟨h, h'⟩
  | resumes w s => exact ⟨h, h'⟩
  | ends w r => exact ⟨h, h'⟩

theorem Ensures.proceeds {P P' R : ω → σ → Prop} {Q Q' S : ω → ρ → Prop} {p : Progress ω σ ρ}
    (h : p.Ensures P Q) (h' : p.Proceeds P' Q') (hR : ∀ w s, P w s → P' w s → R w s)
    (hS : ∀ w r, Q w r → Q' w r → S w r) : p.Proceeds R S := by
  cases p with
  | waits wake => exact h'
  | goes w s => exact hR w s h h'
  | pauses w s => exact hR w s h h'
  | resumes w s => exact hR w s h h'
  | ends w r => exact hS w r h h'

theorem Ensures.of_next? {P : ω → σ → Prop} {Q : ω → ρ → Prop} {p : Progress ω σ ρ} {w : ω}
    {s : σ} (h : p.Ensures P Q) (hp : p.next? = some (w, s)) : P w s := by
  cases p with
  | waits | ends => cases hp
  | goes | pauses | resumes =>
    cases hp
    exact h

theorem ensures_inside {put : ω → υ} {f : σ → τ} {next : ω → ρ → Progress υ τ ξ}
    {p : Progress ω σ ρ} {P : υ → τ → Prop} {Q : υ → ξ → Prop} :
    (p.inside put f next).Ensures P Q ↔
      p.Ensures (fun w s => P (put w) (f s)) (fun w r => (next w r).Ensures P Q) := by
  cases p <;> exact Iff.rfl

theorem ensures_andThen {f : σ → τ} {next : ω → ρ → Progress ω τ ξ}
    {p : Progress ω σ ρ} {P : ω → τ → Prop} {Q : ω → ξ → Prop} :
    (p.andThen f next).Ensures P Q ↔
      p.Ensures (fun w s => P w (f s)) (fun w r => (next w r).Ensures P Q) :=
  ensures_inside

theorem proceeds_andThen {f : σ → τ} {next : ω → ρ → Progress ω τ ξ}
    {p : Progress ω σ ρ} {P : ω → τ → Prop} {Q : ω → ξ → Prop} :
    (p.andThen f next).Proceeds P Q ↔
      p.Proceeds (fun w s => P w (f s)) (fun w r => (next w r).Proceeds P Q) := by
  cases p <;> exact Iff.rfl

theorem ensures_map {f : σ → τ} {g : ρ → ξ} {p : Progress ω σ ρ}
    {P : ω → τ → Prop} {Q : ω → ξ → Prop} :
    (p.map f g).Ensures P Q ↔ p.Ensures (fun w s => P w (f s)) (fun w r => Q w (g r)) :=
  ensures_andThen

end Progress
end Rendezvous
