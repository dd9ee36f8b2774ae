/-!
# Transducers

A stream cipher and every feedback mode is a machine that reads one symbol (a byte, or a
whole block), writes one symbol and moves to a new state.  `Transducer.run` drives such a
machine over a list and returns what it wrote and the state it ended in.

Main statements:

* `run_cons`: one symbol, then the rest, which is how the machine is read;
* `run_append`: running over `a ++ b` is running over `a`, then over `b` from the state `a`
  left, so a message cut into pieces at any points gives the same output and state;
* `length_run`: the output is as long as the input.
-/

namespace CipherEngine

namespace Transducer

variable {σ α β : Type}

/-- The output and final state of a machine with step `step`, run from `s` over `data`. -/
def run (step : σ → α → β × σ) (s : σ) (data : List α) : List β × σ :=
  let r := data.foldl (fun (acc : Array β × σ) x =>
    let (y, s') := step acc.2 x
    (acc.1.push y, s')) (#[], s)
  (r.1.toList, r.2)

/-- The fold behind `run`, from any output already written. -/
theorem foldl_step (step : σ → α → β × σ) (data : List α) (out : Array β) (s : σ) :
    data.foldl (fun (acc : Array β × σ) x =>
        let (y, s') := step acc.2 x
        (acc.1.push y, s')) (out, s) =
      (out ++ (run step s data).1.toArray, (run step s data).2) := by
  induction data generalizing out s with
  | nil => simp [run]
  | cons x xs ih =>
    simp only [List.foldl_cons, run]
    rw [ih, ih ((#[] : Array β).push (step s x).1)]
    simp

@[simp] theorem run_nil (step : σ → α → β × σ) (s : σ) : run step s [] = ([], s) := rfl

theorem run_cons (step : σ → α → β × σ) (s : σ) (x : α) (xs : List α) :
    run step s (x :: xs) =
      ((step s x).1 :: (run step (step s x).2 xs).1, (run step (step s x).2 xs).2) := by
  conv => lhs; unfold run
  simp only [List.foldl_cons]
  rw [foldl_step]
  simp

theorem run_append (step : σ → α → β × σ) (s : σ) (a b : List α) :
    run step s (a ++ b) =
      ((run step s a).1 ++ (run step (run step s a).2 b).1, (run step (run step s a).2 b).2) := by
  induction a generalizing s with
  | nil => simp
  | cons x xs ih => simp [run_cons, ih]

@[simp] theorem length_run (step : σ → α → β × σ) (s : σ) (data : List α) :
    (run step s data).1.length = data.length := by
  induction data generalizing s with
  | nil => rfl
  | cons x xs ih => simp [run_cons, ih]

end Transducer

end CipherEngine
