import Crossing.Machine
import Crossing.Proofs.Text.RoundTrip

/-!
# Running effects

`Effect.exec` runs an effect from an instance and gives its result with the instance that it
leaves, also when it faults. The equations of the primitive effects, `exec_bind` and `exec_tryCatch`
are all that a proof about an effect needs. `Instance.log` and `Instance.updateClosure` are the two
changes that runs of closures are made of.
-/

namespace Crossing

section
variable {Code α β : Type}

namespace Effect

/-- The result of an effect and the instance that it leaves. -/
def exec (e : Effect Code α) (i : Instance Code) : Except Fault α × Instance Code :=
  Id.run ((ExceptT.run e).run i)

variable {e : Effect Code α} {f : α → Effect Code β} {i i' : Instance Code} {a : α} {x : Fault}

@[simp] theorem exec_pure (a : α) (i : Instance Code) :
    exec (pure a : Effect Code α) i = (.ok a, i) := rfl

@[simp] theorem exec_throw (x : Fault) (i : Instance Code) :
    exec (throw x : Effect Code α) i = (.error x, i) := rfl

@[simp] theorem exec_get (i : Instance Code) : exec (get : Effect Code _) i = (.ok i, i) := rfl

@[simp] theorem exec_modify (f : Instance Code → Instance Code) (i : Instance Code) :
    exec (modify f : Effect Code Unit) i = (.ok (), f i) := rfl

/-- A check that needs no instance leaves it as it was. -/
@[simp] theorem exec_liftExcept (r : Except Fault α) (i : Instance Code) :
    exec (liftM r : Effect Code α) i = (r, i) := by
  cases r <;> rfl

/-- The second effect runs where the first came to its end without a fault. -/
theorem exec_bind (e : Effect Code α) (f : α → Effect Code β) (i : Instance Code) :
    exec (e >>= f) i =
      match exec e i with
      | (.ok a, i') => exec (f a) i'
      | (.error x, i') => (.error x, i') := by
  simp only [exec, ExceptT.run_bind, StateT.run_bind, Id.run_bind]
  rcases Id.run ((ExceptT.run e).run i) with ⟨_ | _, _⟩ <;> rfl

/-- After an effect that comes to its end the next one runs on what it leaves. -/
theorem exec_bind_of_ok (h : exec e i = (.ok a, i')) : exec (e >>= f) i = exec (f a) i' := by
  rw [exec_bind, h]

/-- After an effect that faults nothing else runs. -/
theorem exec_bind_of_error (h : exec e i = (.error x, i')) :
    exec (e >>= f) i = (.error x, i') := by
  rw [exec_bind, h]

/-- A handler runs on what the effect had done when it faulted. -/
theorem exec_tryCatch (e : Effect Code α) (h : Fault → Effect Code α) (i : Instance Code) :
    exec (tryCatch e h) i =
      match exec e i with
      | (.ok a, i') => (.ok a, i')
      | (.error x, i') => exec (h x) i' := by
  simp only [exec, ExceptT.run_tryCatch, StateT.run_bind, Id.run_bind]
  rcases Id.run ((ExceptT.run e).run i) with ⟨_ | _, _⟩ <;> rfl

/-- A function of the answer changes nothing else. -/
theorem exec_map (g : α → β) (e : Effect Code α) (i : Instance Code) :
    exec (g <$> e) i = ((exec e i).1.map g, (exec e i).2) := by
  rw [← bind_pure_comp, exec_bind]
  rcases exec e i with ⟨_ | _, _⟩ <;> rfl

/-- A function of the answer faults just as the effect itself does, and leaves the same. -/
theorem exec_map_eq_iff {g : α → β} {r : Except Fault β} :
    exec (g <$> e) i = (r, i') ↔ ∃ r', exec e i = (r', i') ∧ r'.map g = r := by
  rw [exec_map]
  rcases exec e i with ⟨r', i''⟩
  simp only [Prod.mk.injEq]
  constructor
  · rintro ⟨hr, rfl⟩
    exact ⟨r', ⟨rfl, rfl⟩, hr⟩
  · rintro ⟨_, ⟨rfl, rfl⟩, hr⟩
    exact ⟨hr, rfl⟩

end Effect

/-! ## Journal and closures -/

namespace Instance

/-- What the journal tells, oldest first. -/
def events (i : Instance Code) : List Event := i.journal.toList

/-- The instance with one event more in its journal. -/
def log (i : Instance Code) (e : Event) : Instance Code := { i with journal := i.journal.push e }

/-- The instance with the record of a closure changed. -/
def updateClosure (i : Instance Code) (id : Nat) (f : Closure → Closure) : Instance Code :=
  { i with closures := i.closures.modify id f }

variable (i : Instance Code) (e : Event) (id : Nat) (f : Closure → Closure)

@[simp] theorem events_log : (i.log e).events = i.events ++ [e] := by
  simp [log, events]

@[simp] theorem closures_log : (i.log e).closures = i.closures := rfl

@[simp] theorem transfer_log : (i.log e).transfer = i.transfer := rfl

@[simp] theorem closure_log : (i.log e).closure id = i.closure id := rfl

@[simp] theorem events_updateClosure : (i.updateClosure id f).events = i.events := rfl

@[simp] theorem transfer_updateClosure : (i.updateClosure id f).transfer = i.transfer := rfl

@[simp] theorem size_updateClosure :
    (i.updateClosure id f).closures.size = i.closures.size := by
  simp [updateClosure]

/-- A number beyond the closures has the record of no closure. -/
theorem closure_of_size_le {i : Instance Code} {id : Nat} (h : i.closures.size ≤ id) :
    i.closure id = default := by
  simp [closure, h]

/-- A closure with a pointer is one that was wrapped. -/
theorem lt_size_of_pointer {i : Instance Code} {id : Nat} (h : (i.closure id).pointer ≠ 0) :
    id < i.closures.size :=
  Nat.lt_of_not_le fun hle => h (by rw [closure_of_size_le hle]; rfl)

/-- An update changes the record that it is about. -/
theorem closure_updateClosure_self {i : Instance Code} {id : Nat} (h : id < i.closures.size) :
    (i.updateClosure id f).closure id = f (i.closure id) := by
  simp [updateClosure, closure, h, Array.getElem_modify]

/-- It changes no other record. -/
theorem closure_updateClosure_of_ne {i : Instance Code} {id id' : Nat} (h : id ≠ id') :
    (i.updateClosure id f).closure id' = i.closure id' := by
  by_cases hlt : id' < i.closures.size
  · simp [updateClosure, closure, hlt, Array.getElem_modify, h]
  · simp [updateClosure, closure, hlt]

/-- An update of a closure that is none leaves it none. -/
theorem closure_updateClosure_of_size_le {i : Instance Code} {id : Nat}
    (h : i.closures.size ≤ id) : (i.updateClosure id f).closure id = default :=
  closure_of_size_le (by simpa using h)

/-- A change that does not touch the count of running calls. -/
theorem inFlight_updateClosure (hf : ∀ k, (f k).inFlight = k.inFlight) :
    ((i.updateClosure id f).closure id).inFlight = (i.closure id).inFlight := by
  by_cases h : id < i.closures.size
  · rw [closure_updateClosure_self f h, hf]
  · rw [closure_updateClosure_of_size_le f (Nat.le_of_not_lt h),
      closure_of_size_le (Nat.le_of_not_lt h)]

end Instance

@[simp] theorem Effect.exec_record (e : Event) (i : Instance Code) :
    exec (record e) i = (.ok (), i.log e) := rfl

/-- The bytes that are written of a text are its UTF-8 bytes, whichever transcoder makes them. -/
theorem Effect.writeEncoded_eq (features : Features) (id : Nat) (address : UInt32) (t : String) :
    (writeEncoded features id address t : Effect Code Unit) = write id address t.toUTF8 := by
  unfold writeEncoded write
  rw [Features.encodedSize_eq, Features.encode_eq]

/-- A text is staged as its UTF-8 bytes, whichever transcoder the host has. -/
theorem Effect.storeText_eq (address : UInt32) (t : String) :
    (storeText address t : Effect Code Unit) = (do
      let pointer ←
        if 0 < t.toUTF8.size.toUInt32 then
          let pointer ← alloc t.toUTF8.size.toUInt32
          write (← views).buffer pointer t.toUTF8
          pure pointer
        else pure 0
      writeWord address 0 pointer
      writeWord address 1 t.toUTF8.size.toUInt32) := by
  unfold storeText
  simp only [Features.encodedSize_eq, writeEncoded_eq]
  rfl

/-- The next block begins at the first multiple of eight, where eight can be added. -/
theorem Effect.aligned_of_lt {a : UInt32} (h : a.toNat + 8 < UInt32.size) :
    ∃ start, aligned a = .ok start ∧ start.toNat = (a.toNat + 7) / 8 * 8 := by
  have h1 : (1 : UInt32).toNat = 1 := rfl
  have h8 : (8 : UInt32).toNat = 8 := rfl
  have hbound : UInt32.size = 2 ^ 32 := rfl
  have hsum : Word.sum a 8 = .ok (a + 8) := Word.sum_of_lt h
  have hadd : (a + 8).toNat = a.toNat + 8 := (Word.sum_eq_ok_iff.1 hsum).symm
  refine ⟨(a + 8 - 1) / 8 * 8, by rw [aligned, hsum]; rfl, ?_⟩
  rw [UInt32.toNat_mul, UInt32.toNat_div, UInt32.toNat_sub, hadd, h1, h8]
  omega

/-- Else the host panics. -/
theorem Effect.aligned_of_le {a : UInt32} (h : UInt32.size ≤ a.toNat + 8) :
    aligned a = .error .overflow := by
  rw [aligned, Word.sum_of_le h]
  rfl

/-- Taking the value out of the slot. -/
theorem Effect.exec_takeTransfer (i : Instance Code) :
    exec takeTransfer i = (.ok i.transfer, match i.transfer with
      | none => i
      | some v => { i.log (.taken v) with transfer := none }) := by
  rw [takeTransfer, exec_bind_of_ok (exec_get i)]
  cases i.transfer <;> rfl

@[simp] theorem Effect.exec_updateClosure (id : Nat) (f : Closure → Closure) (i : Instance Code) :
    exec (updateClosure id f) i = (.ok (), i.updateClosure id f) := rfl

end

end Crossing
