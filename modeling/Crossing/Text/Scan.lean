/-!
# Scanning a list in variable strides

Text decoders look at one unit and the units after it, put something out, and skip the units they
used up. `scan step` does this over a whole list; `scan_cons` is its one equation. The recursion is
on the list alone, with the number of units still to be skipped as a counter.
-/

namespace Crossing

/-- Goes on with `skip` units to pass over and `acc` already put out. -/
def scanFrom {α β : Type} (step : α → List α → List β × Nat) (acc : Array β) :
    Nat → List α → Array β
  | _, [] => acc
  | skip + 1, _ :: rest => scanFrom step acc skip rest
  | 0, x :: rest => scanFrom step (acc ++ (step x rest).1) (step x rest).2 rest

/-- What `step` puts out along the list. Applied to a unit and the units after it, `step` gives its
output and how many of the following units it used up. -/
def scan {α β : Type} (step : α → List α → List β × Nat) (xs : List α) : List β :=
  (scanFrom step #[] 0 xs).toList

section
variable {α β : Type} (step : α → List α → List β × Nat)

/-- Items that are skipped leave no trace in what is collected. -/
theorem scanFrom_skip (acc : Array β) (n : Nat) (xs : List α) :
    scanFrom step acc n xs = scanFrom step acc 0 (xs.drop n) := by
  induction xs generalizing n with
  | nil => cases n <;> simp [scanFrom]
  | cons x rest ih =>
    cases n with
    | zero => simp
    | succ n => simpa [scanFrom] using ih n

/-- What was collected before stands in front of what a scan adds. -/
theorem toList_scanFrom (acc : Array β) (n : Nat) (xs : List α) :
    (scanFrom step acc n xs).toList = acc.toList ++ (scanFrom step #[] n xs).toList := by
  induction xs generalizing acc n with
  | nil => cases n <;> simp [scanFrom]
  | cons x rest ih =>
    cases n with
    | succ n => simpa [scanFrom] using ih acc n
    | zero =>
      simp only [scanFrom]
      rw [ih, ih (#[] ++ (step x rest).1)]
      simp

@[simp] theorem scan_nil : scan step [] = [] := rfl

/-- A scan puts out what its first step does, and goes on behind the units that step used. -/
theorem scan_cons (x : α) (rest : List α) :
    scan step (x :: rest) = (step x rest).1 ++ scan step (rest.drop (step x rest).2) := by
  simp only [scan, scanFrom]
  rw [toList_scanFrom, scanFrom_skip]
  simp

end

end Crossing
