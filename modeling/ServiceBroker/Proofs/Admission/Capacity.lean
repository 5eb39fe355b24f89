import Mathlib.Data.Bool.Basic
import Mathlib.Data.List.Forall2
import ServiceBroker.Admission

/-!
# More room sheds no more

Two budgets see the same calls and the same settlements, and one of them has more permits. What the
smaller one admits the larger one admits too, although it holds permits for calls that the smaller
one has shed: it never holds more of those than it has permits more.
-/
namespace ServiceBroker

/-- A budget, and the calls that have not settled with the way in which they were taken on. -/
structure Gate where
  budget : Budget
  unsettled : List (Nat × Admission)

namespace Gate

inductive Move where
  | call (id : Nat) (op : Operation)
  | settle (id : Nat)

def ofCapacity (capacity : Nat) : Gate := ⟨.ofCapacity capacity, []⟩

/-- State-changing calls that hold a permit. -/
def inFlight (g : Gate) : Nat := g.budget.inFlight

/-- How a call of an operation would be taken on. -/
def admission (g : Gate) (op : Operation) : Admission := (g.budget.acquire op).1

/-- A call gives back what it holds when it settles, and settles once. -/
def apply (g : Gate) : Move → Gate
  | .call id op => ⟨(g.budget.acquire op).2, (id, g.admission op) :: g.unsettled⟩
  | .settle id =>
    match g.unsettled.find? (·.1 == id) with
    | some (_, admission) => ⟨g.budget.release admission, g.unsettled.eraseP (·.1 == id)⟩
    | none => g

def after (g : Gate) (moves : List Move) : Gate := moves.foldl apply g

/-- The calls that hold a permit. -/
def holding (calls : List (Nat × Admission)) : Nat := calls.countP (·.2.holdsPermit)

theorem holding_cons (id : Nat) (admission : Admission) (calls : List (Nat × Admission)) :
    holding ((id, admission) :: calls) = holding calls + admission.holdsPermit.toNat := by
  rw [holding, List.countP_cons]
  cases admission.holdsPermit <;> rfl

theorem holding_eraseP {p : Nat × Admission → Bool} {calls : List (Nat × Admission)}
    {call : Nat × Admission} (h : calls.find? p = some call) :
    holding (calls.eraseP p) + call.2.holdsPermit.toNat = holding calls := by
  induction calls with
  | nil => cases h
  | cons first calls ih =>
    by_cases hfirst : p first = true
    · rw [List.find?_cons_of_pos hfirst] at h
      cases h
      rw [List.eraseP_cons_of_pos hfirst]
      exact (holding_cons ..).symm
    · rw [List.find?_cons_of_neg hfirst] at h
      have hrest := ih h
      rw [List.eraseP_cons_of_neg hfirst, holding_cons, holding_cons]
      omega

/-! ## One gate -/

/-- The permits of a gate are held by its unsettled calls or available. -/
structure Sound (capacity : Nat) (g : Gate) : Prop where
  size : g.budget.capacity = capacity
  held : g.budget.available + holding g.unsettled = capacity

variable {c c' : Nat} {g low high : Gate}

theorem sound_ofCapacity (capacity : Nat) : (ofCapacity capacity).Sound capacity := ⟨rfl, rfl⟩

theorem Sound.inFlight (h : g.Sound c) : g.inFlight = holding g.unsettled := by
  have hsize := h.size
  have hheld := h.held
  simp only [Gate.inFlight, Budget.inFlight]
  omega

theorem Sound.apply (h : g.Sound c) (move : Move) : (g.apply move).Sound c := by
  have hheld := h.held
  cases move with
  | call id op =>
    refine ⟨(g.budget.capacity_acquire op).trans h.size, ?_⟩
    have havailable := g.budget.available_acquire op
    simp only [Gate.apply, holding_cons, Gate.admission]
    omega
  | settle id =>
    cases hfind : g.unsettled.find? (·.1 == id) with
    | none => simpa only [Gate.apply, hfind] using h
    | some call =>
      have hholding := holding_eraseP hfind
      simp only [Gate.apply, hfind]
      refine ⟨(g.budget.capacity_release call.2).trans h.size, ?_⟩
      simp only [Budget.available_release]
      omega

/-- Where a state-changing call comes to a gate, room decides. -/
theorem Sound.admission_cases (h : g.Sound c) (op : Operation) :
    g.admission op = .exempt ∧ op.isReadOnly = true ∨
      g.admission op = .admitted ∧ op.isReadOnly = false ∧ g.inFlight < c ∨
      g.admission op = .rejected c ∧ op.isReadOnly = false ∧ g.inFlight = c := by
  have hsize := h.size
  have hheld := h.held
  have hinFlight := h.inFlight
  rcases g.budget.acquire_cases op with ⟨hkind, heq⟩ | ⟨hkind, available, havailable, heq⟩ |
    ⟨hkind, havailable, heq⟩
  · exact .inl ⟨by rw [admission, heq], hkind⟩
  · exact .inr (.inl ⟨by rw [admission, heq], hkind, by omega⟩)
  · have hfull : g.inFlight = c := by omega
    refine .inr (.inr ⟨?_, hkind, hfull⟩)
    rw [admission, heq]
    exact congrArg Admission.rejected hfull

/-! ## Two gates -/

/-- The two have taken on the same calls, and what holds a permit of the first one holds a permit of
the second one. -/
abbrev Nested : List (Nat × Admission) → List (Nat × Admission) → Prop :=
  List.Forall₂ fun a b => a.1 = b.1 ∧ (a.2.holdsPermit = true → b.2.holdsPermit = true)

theorem holding_le {calls calls' : List (Nat × Admission)} (h : Nested calls calls') :
    holding calls ≤ holding calls' := by
  induction h with
  | nil => exact Nat.le_refl _
  | cons hcall _ ih =>
    have hholds := Bool.toNat_le_toNat (Bool.le_iff_imp.2 hcall.2)
    rw [holding_cons, holding_cons]
    omega

/-- A call that settles is unsettled at both gates or at none of them. -/
theorem Nested.settle {calls calls' : List (Nat × Admission)} (h : Nested calls calls') (id : Nat) :
    (calls.find? (·.1 == id) = none ∧ calls'.find? (·.1 == id) = none) ∨
      ∃ call call', calls.find? (·.1 == id) = some call ∧ calls'.find? (·.1 == id) = some call' ∧
        (call.2.holdsPermit = true → call'.2.holdsPermit = true) ∧
        Nested (calls.eraseP (·.1 == id)) (calls'.eraseP (·.1 == id)) := by
  induction h with
  | nil => exact .inl ⟨rfl, rfl⟩
  | @cons a b as bs hcall hcalls ih =>
    obtain ⟨hid, hholds⟩ := hcall
    by_cases ha : a.1 = id
    · have hb : b.1 = id := hid ▸ ha
      exact .inr ⟨a, b, by simp [ha], by simp [hb], hholds, by simpa [ha, hb] using hcalls⟩
    · have hb : b.1 ≠ id := hid ▸ ha
      simp only [List.find?_cons, List.eraseP_cons, beq_false_of_ne ha, beq_false_of_ne hb]
      rcases ih with hnone | ⟨call, call', hcall, hcall', hnested, hrest⟩
      · exact .inl hnone
      · exact .inr ⟨call, call', hcall, hcall', hnested, .cons ⟨hid, hholds⟩ hrest⟩

/-- Two gates that have seen the same, the second one with more permits. -/
structure Coupled (c c' : Nat) (low high : Gate) : Prop where
  soundLow : low.Sound c
  soundHigh : high.Sound c'
  nested : Nested low.unsettled high.unsettled
  surplus : high.inFlight ≤ low.inFlight + (c' - c)

theorem Coupled.inFlight_le (h : Coupled c c' low high) : low.inFlight ≤ high.inFlight := by
  rw [h.soundLow.inFlight, h.soundHigh.inFlight]
  exact holding_le h.nested

/-- If the larger gate is full then so is the smaller one. -/
theorem Coupled.admits (h : Coupled c c' low high) (hc : c ≤ c') {op : Operation}
    (hlow : low.admission op = .admitted) : high.admission op = .admitted := by
  have hsurplus := h.surplus
  rcases h.soundLow.admission_cases op with ⟨heq, -⟩ | ⟨-, hkind, hroom⟩ | ⟨heq, -⟩
  · simp [hlow] at heq
  · rcases h.soundHigh.admission_cases op with ⟨-, hkind'⟩ | ⟨heq', -⟩ | ⟨-, -, hfull⟩
    · simp [hkind] at hkind'
    · exact heq'
    · omega
  · simp [hlow] at heq

theorem Coupled.sheds (h : Coupled c c' low high) (hc : c ≤ c') {op : Operation} {n : Nat}
    (hhigh : high.admission op = .rejected n) : low.admission op = .rejected c := by
  rcases h.soundLow.admission_cases op with ⟨-, hkind⟩ | ⟨heq, -⟩ | ⟨heq, -⟩
  · rcases h.soundHigh.admission_cases op with ⟨heq', -⟩ | ⟨heq', -⟩ | ⟨-, hkind', -⟩
    · simp [hhigh] at heq'
    · simp [hhigh] at heq'
    · simp [hkind] at hkind'
  · simp [h.admits hc heq] at hhigh
  · exact heq

theorem Coupled.call (h : Coupled c c' low high) (hc : c ≤ c') (id : Nat) (op : Operation) :
    Coupled c c' (low.apply (.call id op)) (high.apply (.call id op)) := by
  have hlow := h.soundLow.apply (.call id op)
  have hhigh := h.soundHigh.apply (.call id op)
  have hholds : (low.admission op).holdsPermit = true → (high.admission op).holdsPermit = true := by
    intro hlow
    have hadmitted : low.admission op = .admitted := by
      cases hcase : low.admission op with
      | admitted => rfl
      | exempt | rejected => simp [hcase, Admission.holdsPermit] at hlow
    rw [h.admits hc hadmitted]
    rfl
  refine ⟨hlow, hhigh, .cons ⟨rfl, hholds⟩ h.nested, ?_⟩
  have hle := h.inFlight_le
  have hsurplus := h.surplus
  have hlowStep : (low.apply (.call id op)).inFlight =
      low.inFlight + (low.admission op).holdsPermit.toNat := by
    rw [hlow.inFlight, h.soundLow.inFlight]
    exact holding_cons ..
  have hhighStep : (high.apply (.call id op)).inFlight =
      high.inFlight + (high.admission op).holdsPermit.toNat := by
    rw [hhigh.inFlight, h.soundHigh.inFlight]
    exact holding_cons ..
  rw [hlowStep, hhighStep]
  -- The surplus grows only with a call that is shed by the smaller gate, which then is full.
  rcases h.soundHigh.admission_cases op with ⟨heq, -⟩ | ⟨heq, hkind, hroom⟩ | ⟨heq, -⟩
  · have hnone : (high.admission op).holdsPermit.toNat = 0 := by rw [heq]; rfl
    omega
  · have hone : (high.admission op).holdsPermit.toNat = 1 := by rw [heq]; rfl
    rcases h.soundLow.admission_cases op with ⟨-, hkind'⟩ | ⟨heq', -⟩ | ⟨-, -, hfull⟩
    · simp [hkind] at hkind'
    · have hone' : (low.admission op).holdsPermit.toNat = 1 := by rw [heq']; rfl
      omega
    · omega
  · have hnone : (high.admission op).holdsPermit.toNat = 0 := by rw [heq]; rfl
    omega

theorem Coupled.settle (h : Coupled c c' low high) (id : Nat) :
    Coupled c c' (low.apply (.settle id)) (high.apply (.settle id)) := by
  have hlow := h.soundLow.apply (.settle id)
  have hhigh := h.soundHigh.apply (.settle id)
  have hsurplus := h.surplus
  rcases Nested.settle h.nested id with ⟨hnone, hnone'⟩ |
    ⟨call, call', hcall, hcall', hholds, hrest⟩
  · have hsame : low.apply (.settle id) = low := by simp only [Gate.apply, hnone]
    have hsame' : high.apply (.settle id) = high := by simp only [Gate.apply, hnone']
    rw [hsame, hsame']
    exact h
  · have hunsettled : (low.apply (.settle id)).unsettled = low.unsettled.eraseP (·.1 == id) := by
      simp only [Gate.apply, hcall]
    have hunsettled' : (high.apply (.settle id)).unsettled =
        high.unsettled.eraseP (·.1 == id) := by
      simp only [Gate.apply, hcall']
    refine ⟨hlow, hhigh, by rwa [hunsettled, hunsettled'], ?_⟩
    have hback := holding_eraseP hcall
    have hback' := holding_eraseP hcall'
    have hmore := Bool.toNat_le_toNat (Bool.le_iff_imp.2 hholds)
    rw [h.soundLow.inFlight, h.soundHigh.inFlight] at hsurplus
    rw [hlow.inFlight, hhigh.inFlight, hunsettled, hunsettled']
    omega

theorem Coupled.apply (h : Coupled c c' low high) (hc : c ≤ c') (move : Move) :
    Coupled c c' (low.apply move) (high.apply move) := by
  cases move with
  | call id op => exact h.call hc id op
  | settle id => exact h.settle id

theorem coupled_ofCapacity (c c' : Nat) : Coupled c c' (ofCapacity c) (ofCapacity c') where
  soundLow := sound_ofCapacity c
  soundHigh := sound_ofCapacity c'
  nested := .nil
  surplus := by simp [ofCapacity, Gate.inFlight, Budget.inFlight, Budget.ofCapacity]

theorem coupled_after (hc : c ≤ c') (moves : List Move) :
    Coupled c c' ((ofCapacity c).after moves) ((ofCapacity c').after moves) := by
  suffices h : ∀ low high, Coupled c c' low high →
      Coupled c c' (low.after moves) (high.after moves) from h _ _ (coupled_ofCapacity c c')
  induction moves with
  | nil => exact fun _ _ h => h
  | cons move moves ih => exact fun _ _ h => ih _ _ (h.apply hc move)

/-- Whatever was called and has settled: what a gate admits is admitted by one with more permits as
well, which sheds nothing that the first one would not shed, and holds more permits by no more than
it has more. -/
theorem admitted_mono (hc : c ≤ c') (moves : List Move) :
    let low := (ofCapacity c).after moves
    let high := (ofCapacity c').after moves
    (∀ op, low.admission op = .admitted → high.admission op = .admitted) ∧
      (∀ op n, high.admission op = .rejected n → low.admission op = .rejected c) ∧
      low.inFlight ≤ high.inFlight ∧ high.inFlight - low.inFlight ≤ c' - c := by
  intro low high
  have h : Coupled c c' low high := coupled_after hc moves
  have hsurplus := h.surplus
  exact ⟨fun op => h.admits hc, fun op n => h.sheds hc, h.inFlight_le, by omega⟩

/-- The second call is shed by the smaller gate and still holds its permit at the larger one when
the first call has settled. -/
theorem admitted_mono_of_one :
    let moves : List Move := [.call 0 .provision, .call 1 .unbind, .settle 0]
    let low := (ofCapacity 1).after moves
    let high := (ofCapacity 2).after moves
    1 ≤ 2 ∧ low.inFlight = 0 ∧ high.inFlight = 1 ∧ low.admission .update = .admitted ∧
      high.admission .update = .admitted ∧ high.inFlight - low.inFlight ≤ 2 - 1 := by
  intro moves low high
  have hmono := admitted_mono (show 1 ≤ 2 by decide) moves
  have hadmitted : low.admission .update = .admitted := by decide
  exact ⟨by decide, by decide, by decide, hadmitted, hmono.1 .update hadmitted, hmono.2.2.2⟩

end Gate
end ServiceBroker
