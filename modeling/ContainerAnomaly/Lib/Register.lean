import ContainerAnomaly.Lib.Machine

/-!
# Registers

A register is a part of a state that inputs overwrite, clear or leave alone. After any run it shows
the last value written since it was last cleared, and its blank when nothing was
(`Machine.final_register`).
-/

namespace ContainerAnomaly.Lib

variable {σ ι ο β : Type}

/-- A fold whose steps overwrite a part of the state or leave it alone ends with the last value
written. -/
theorem foldl_overwrite (shown : σ → β) (write : ι → Option β) (next : σ → ι → σ)
    (written : ∀ state input, shown (next state input) = (write input).getD (shown state))
    (inputs : List ι) (state : σ) :
    shown (inputs.foldl next state) = (inputs.filterMap write).getLast?.getD (shown state) := by
  induction inputs using List.reverseRecOn with
  | nil => rfl
  | append_singleton inputs input ih =>
    rw [List.foldl_append, List.foldl_cons, List.foldl_nil, written, ih, List.filterMap_append]
    cases value : write input <;> simp [value]

/-- A part of the state of a machine is a register: some inputs clear it, and the others write
values into it, one after the other. -/
structure Machine.IsRegister (machine : Machine σ ι ο) (shown : σ → β) (blank : β)
    (clears : ι → Bool) (writes : ι → List β) : Prop where
  /-- An input that clears the register leaves it blank. -/
  cleared : ∀ state input, clears input = true → shown (machine.step state input).1 = blank
  /-- Any other leaves its last write, or what was there. -/
  written : ∀ state input, clears input = false →
    shown (machine.step state input).1 = (writes input).getLast?.getD (shown state)

/-- In every run that begins with a blank register, it shows the last value written since it was
last cleared. -/
theorem Machine.final_register {machine : Machine σ ι ο} {shown : σ → β} {blank : β}
    {clears : ι → Bool} {writes : ι → List β}
    (register : machine.IsRegister shown blank clears writes) {start : σ}
    (begins : shown start = blank) (inputs : List ι) :
    shown (machine.final start inputs) =
      ((sinceLast clears inputs).flatMap writes).getLast?.getD blank := by
  induction inputs using List.reverseRecOn with
  | nil => exact begins
  | append_singleton inputs input ih =>
    rw [Machine.final_snoc, sinceLast_snoc]
    cases clear : clears input with
    | true => exact register.cleared _ input clear
    | false =>
      rw [register.written _ input clear, ih, if_neg Bool.false_ne_true, List.flatMap_append]
      cases last : (writes input).getLast? <;> simp [last, List.getLast?_append]

end ContainerAnomaly.Lib
