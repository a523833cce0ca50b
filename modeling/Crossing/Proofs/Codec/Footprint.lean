import Crossing.Proofs.Codec.Lending
import Crossing.Proofs.Codec.Staged

/-!
# The footprint of encoding

What encoding changes is bounded on both sides. Of memory, `Ensures` says it: the first thirteen
bytes of the slot and what lies behind the heap's top. Of what the host keeps, `Undisturbed` says
it: encoding adds to the journal, the counters and the tables of lent and registered values, and
touches neither closures nor transfer slot nor flags. `WritesAt` puts the two together. All of it
holds on the way into a fault as well, so a value that is encoded half or at an address that is no
slot leaves no trace in memory that was in use.
-/

namespace Crossing

open Effect

section
variable {Code α : Type} {i i' : Instance Code}

/-- The instances have the same closures, the same transfer slot and the same flags. -/
structure Undisturbed (i i' : Instance Code) : Prop where
  closures : i'.closures = i.closures
  transfer : i'.transfer = i.transfer
  started : i'.started = i.started
  dead : i'.dead = i.dead

namespace Undisturbed

/-- What differs in memory, allocator and journal at most is undisturbed. -/
theorem of_confined (h : Confined i i') : Undisturbed i i' :=
  ⟨h.closures, h.transfer, h.started, h.dead⟩

/-- Allocations and writes leave closures, transfer slot and flags undisturbed. -/
theorem allocating : Allocating fun i i' : Instance Code => Undisturbed i i' where
  refl _ := by constructor <;> rfl
  trans h h' :=
    { closures := h'.closures.trans h.closures
      transfer := h'.transfer.trans h.transfer
      started := h'.started.trans h.started
      dead := h'.dead.trans h.dead }
  modify _ hf i := of_confined (hf i).1
  record _ _ _ := by constructor <;> rfl

/-- Encoding leaves closures, transfer slot and flags as they were, whatever the value is and
whether it is encoded or not. -/
theorem encoding : Encoding fun i i' : Instance Code => Undisturbed i i' where
  toWriting := allocating.writing
  acquire _ := allocating.toSteady.lending fun _ _ _ => by constructor <;> rfl
  registerRaw _ := allocating.toSteady.registering fun _ _ => by constructor <;> rfl

end Undisturbed

/-- Of the memory in use since before, nothing but the slot at `address` was written; neither memory
nor heap got smaller, and closures, transfer slot and flags are as they were. -/
structure WritesAt (address : UInt32) (i i' : Instance Code) : Prop extends Undisturbed i i' where
  kept : ∀ a < i.guest.heapTop.toNat, a ∉ Set.Ico address.toNat (address.toNat + 13) →
    i'.guest.buffer.byteAt a = i.guest.buffer.byteAt a
  size : i.guest.buffer.bytes.size ≤ i'.guest.buffer.bytes.size
  heapTop : i.guest.heapTop.toNat ≤ i'.guest.heapTop.toNat

/-- What writes into a slot and behind the heap's top only leaves the rest of the memory in use
alone. -/
theorem WritesAt.of_grows {address : UInt32}
    (hg : Grows (Set.Ico address.toNat (address.toNat + 13) ∪ Set.Ici i.guest.heapTop.toNat) i i')
    (h : Undisturbed i i') : WritesAt address i i' where
  toUndisturbed := h
  kept a ha hslot := hg.kept a (by
    rintro (hin | hin)
    · exact hslot hin
    · exact Nat.not_lt.2 hin ha)
  size := hg.size
  heapTop := hg.heapTop

namespace Machine

/-- Encoding a value at any address, on an instance that a run has reached on a guest of at most
65535 pages, writes into the slot at that address and into fresh memory only, whether it succeeds or
faults. -/
theorem writesAt_encode {pages maxPages : UInt32} (hpages : pages.toNat ≤ 65535)
    (hmax : maxPages.toNat ≤ 65535) (config : Config) (as : List (Action Code)) (address : UInt32)
    (v : Value) :
    WritesAt address ((boot (Guest.ofPages Code pages maxPages) config).runs as).inst
      (((boot (Guest.ofPages Code pages maxPages) config).runs as).perform
        (.encode address v)).2.inst := by
  have hs := sound_runs hpages hmax config as
  exact .of_grows (ensures_encode hs address v).grows (Undisturbed.encoding.encode address v _)

/-- At an address that is no slot a host object is lent and nothing in use is written. -/
theorem writesAt_encode_misaligned :
    ∃ m', ((boot (Guest.ofPages Unit 1 16) .standard).runs
        [.perform (.prepare (.string "x"))]).perform (.encode 2 (.reference (.named "h"))) =
          (.error (.misaligned 2 4), m') ∧
      WritesAt 2 ((boot (Guest.ofPages Unit 1 16) .standard).runs
        [.perform (.prepare (.string "x"))]).inst m'.inst := by
  have hpages : (1 : UInt32).toNat ≤ 65535 := by decide
  have hmax : (16 : UInt32).toNat ≤ 65535 := by decide
  have h := writesAt_encode hpages hmax .standard
    ([.perform (.prepare (.string "x"))] : List (Action Unit)) 2 (.reference (.named "h"))
  have hconfined := Confined.writing.prepare (v := .string "x") rfl
    (boot (Guest.ofPages Unit 1 16) .standard).inst
  have hhandles : ((boot (Guest.ofPages Unit 1 16) .standard).runs
      [.perform (.prepare (.string "x"))]).inst.handles = .empty := by
    rw [runs_cons, runs_nil, inst_act_perform, Operation.run, hconfined.handles]
    rfl
  generalize (boot (Guest.ofPages Unit 1 16) .standard).runs _ = m at h hhandles ⊢
  have hroom : m.inst.handles.RoomFor 1 := by
    rw [hhandles]
    exact .empty (by decide)
  obtain ⟨i', hexec, -⟩ :=
    exec_encode_misaligned 2 (v := .reference (.named "h")) rfl m.inst (by decide) hroom
  have hperform : m.perform (.encode 2 (.reference (.named "h"))) =
      (.error (.misaligned 2 4), { m with inst := i' }) := perform_of_exec hexec
  rw [hperform] at h
  exact ⟨_, hperform, h⟩

end Machine

end

end Crossing
