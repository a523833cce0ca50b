import Crossing.Proofs.Instance.Parses

/-!
# Effects that only read

`Repeats i e S` says that the effect `e` may be run again and again: from any two instances that
reading has made of `i` it faults alike, or answers with what `S` relates, and leaves both as
reading leaves them (`Instance.Read`), with the same closures wrapped. Nothing is asked of `i`, so
what is said here holds of memories, tables and views that no run leads to as well.

Two answers can differ only where a closure was wrapped, since each one takes the next number. A
`Renewal` therefore knows how many closures there were before each of the two runs. Effects that
wrap none answer the same (`Renewal.same`), and what follows them needs to be looked at once
(`Repeats.look`); answers that may differ are only ever put together (`Repeats.map`,
`Repeats.join`).
-/

namespace Crossing

open Effect

/-- A closure that has not been called or dropped since it was wrapped. -/
def Closure.IsFresh (c : Closure) : Prop :=
  c.inFlight = 0 ∧ c.dropQueued = false ∧ c.dropped = false

section
variable {Code α β γ : Type} {i i' i₁ i₂ : Instance Code}

/-! ## What reading leaves -/

/-- The instance `i'` is what reading makes of `i`: the closures `cs` have been wrapped behind those
that there were, the views are published if they never were, and the journal tells of it. -/
structure Instance.Read (i : Instance Code) (cs : List Closure) (i' : Instance Code) : Prop where
  eq : ∃ views journal, i' = { i.wrapping cs with views, journal }
  views : i'.views = i.views ∨ i.views = none ∧ i'.views = some i.nextViews

namespace Instance.Read

variable {cs ds : List Closure}

/-- Reading nothing changes nothing. -/
theorem refl (i : Instance Code) : i.Read [] i := by
  refine ⟨⟨i.views, i.journal, ?_⟩, .inl rfl⟩
  rw [wrapping_nil]

/-- Reading leaves the guest as it is. -/
theorem guest (h : i.Read cs i') : i'.guest = i.guest := by
  obtain ⟨_, _, rfl⟩ := h.eq
  rfl

/-- It leaves the configuration as it is. -/
theorem config (h : i.Read cs i') : i'.config = i.config := by
  obtain ⟨_, _, rfl⟩ := h.eq
  rfl

/-- It leaves the arena as it is. -/
theorem arena (h : i.Read cs i') : i'.arena = i.arena := by
  obtain ⟨_, _, rfl⟩ := h.eq
  rfl

/-- It leaves the handles as they are. -/
theorem handles (h : i.Read cs i') : i'.handles = i.handles := by
  obtain ⟨_, _, rfl⟩ := h.eq
  rfl

/-- It leaves the registry as it is. -/
theorem raw (h : i.Read cs i') : i'.raw = i.raw := by
  obtain ⟨_, _, rfl⟩ := h.eq
  rfl

/-- It adds the closures that it wraps behind those that there were. -/
theorem closures (h : i.Read cs i') : i'.closures = i.closures ++ cs.toArray := by
  obtain ⟨_, _, rfl⟩ := h.eq
  rfl

/-- It adds as many as it wraps. -/
theorem size_closures (h : i.Read cs i') : i'.closures.size = i.closures.size + cs.length := by
  rw [h.closures, Array.size_append]
  rfl

/-- While none were published, the views that a publication makes are the same. -/
theorem nextViews (h : i.Read cs i') (hviews : i'.views = none) : i'.nextViews = i.nextViews := by
  have hnone : i.views = none := by
    rcases h.views with hv | ⟨-, hv⟩ <;> rw [hviews] at hv
    · exact hv.symm
    · cases hv
  rw [Instance.nextViews, Instance.nextViews, h.guest, hviews, hnone]

/-- An event changes the journal only. -/
theorem log (h : i.Read cs i') (e : Event) : i.Read cs (i'.log e) where
  eq := by
    obtain ⟨_, _, rfl⟩ := h.eq
    exact ⟨_, _, rfl⟩
  views := h.views

/-- Reading goes on after reading. -/
theorem trans (h : i.Read cs i₁) (h' : i₁.Read ds i₂) : i.Read (cs ++ ds) i₂ where
  eq := by
    obtain ⟨_, _, rfl⟩ := h.eq
    obtain ⟨views, journal, rfl⟩ := h'.eq
    refine ⟨views, journal, ?_⟩
    simp [Instance.wrapping]
  views := by
    rcases h'.views with hv | ⟨hnone, hv⟩
    · rw [hv]
      exact h.views
    · rw [hv, h.nextViews hnone]
      rcases h.views with hi | ⟨-, hi⟩
      · exact .inr ⟨hi ▸ hnone, rfl⟩
      · rw [hnone] at hi
        cases hi

/-- The views that are asked for are those that there were, or the first ones. -/
theorem exec_views (h : i.Read cs i') :
    ∃ i'', exec Effect.views i' = (.ok (i.views.getD i.nextViews), i'') ∧ i.Read cs i'' := by
  cases hv : i'.views with
  | some v =>
    refine ⟨i', ?_, h⟩
    rw [exec_views_of_some hv]
    rcases h.views with hi | ⟨hnone, hi⟩ <;> rw [hv] at hi
    · rw [← hi, Option.getD_some]
    · rw [hnone, Option.getD_none, Option.some.inj hi]
  | none =>
    have hnone : i.views = none := by
      rcases h.views with hi | ⟨-, hi⟩ <;> rw [hv] at hi
      · exact hi.symm
      · cases hi
    have hexec := (exec_views_of_none hv).trans (exec_publish i')
    rw [h.nextViews hv] at hexec
    refine ⟨_, by rw [hexec, hnone, Option.getD_none], ?_, .inr ⟨hnone, rfl⟩⟩
    obtain ⟨_, _, rfl⟩ := h.eq
    exact ⟨_, _, rfl⟩

/-- One closure more has been wrapped. -/
theorem exec_wrap (h : i.Read cs i') (kind : ClosureKind) (adapter pointer deallocator : UInt32) :
    ∃ i'', exec (wrap kind adapter pointer deallocator) i' =
        (.ok (.closure (i.closures.size + cs.length)), i'') ∧
      i.Read (cs ++ [({ kind, adapter, pointer, deallocator } : Closure)]) i'' := by
  have hpush (c : Closure) : i'.closures.push c = i.closures ++ (cs ++ [c]).toArray := by
    rw [h.closures]
    simp
  have hwrap := Effect.exec_wrap kind adapter pointer deallocator i'
  rw [hpush, h.size_closures] at hwrap
  refine ⟨_, hwrap, ?_, h.views⟩
  obtain ⟨_, _, rfl⟩ := h.eq
  exact ⟨_, _, rfl⟩

end Instance.Read

/-! ## Two answers -/

/-- What relates the answers of two runs, with the numbers of closures wrapped before each of them
and the closures that either one wraps. -/
abbrev Renewal (α : Type) : Type := Nat → Nat → α → α → List Closure → Prop

/-- The answers are the same, and no closure is wrapped. -/
def Renewal.same : Renewal α := fun _ _ a b cs => a = b ∧ cs = []

/-- What comes of an effect on two instances that reading has made of `i`: the same closures have
been wrapped on both, and the effect has faulted alike or answered with what `S` relates. -/
inductive Repetition (i : Instance Code) (ds ds' : List Closure) (S : Renewal α) :
    Except Fault α × Instance Code → Except Fault α × Instance Code → Prop
  | ok {a b : α} {cs : List Closure} {j₁ j₂ : Instance Code} :
      (∀ c ∈ cs, c.IsFresh) → i.Read (ds ++ cs) j₁ → i.Read (ds' ++ cs) j₂ →
      S (i.closures.size + ds.length) (i.closures.size + ds'.length) a b cs →
      Repetition i ds ds' S (.ok a, j₁) (.ok b, j₂)
  | error {x : Fault} {cs : List Closure} {j₁ j₂ : Instance Code} :
      (∀ c ∈ cs, c.IsFresh) → i.Read (ds ++ cs) j₁ → i.Read (ds' ++ cs) j₂ →
      Repetition i ds ds' S (.error x, j₁) (.error x, j₂)

namespace Repetition

variable {ds ds' cs : List Closure} {S T : Renewal α} {r₁ r₂ : Except Fault α × Instance Code}

/-- What comes after the closures `cs` have been wrapped on both, counted from before that. -/
theorem shift (hcs : ∀ c ∈ cs, c.IsFresh) (h : Repetition i (ds ++ cs) (ds' ++ cs) S r₁ r₂)
    (hT : ∀ {a b es}, S (i.closures.size + ds.length + cs.length)
        (i.closures.size + ds'.length + cs.length) a b es →
      T (i.closures.size + ds.length) (i.closures.size + ds'.length) a b (cs ++ es)) :
    Repetition i ds ds' T r₁ r₂ := by
  have happend {es : List Closure} (hes : ∀ c ∈ es, c.IsFresh) : ∀ c ∈ cs ++ es, c.IsFresh :=
    fun c hc => (List.mem_append.1 hc).elim (hcs c) (hes c)
  cases h with
  | ok hes h₁ h₂ hS =>
    rw [List.append_assoc] at h₁ h₂
    rw [List.length_append, List.length_append, ← Nat.add_assoc, ← Nat.add_assoc] at hS
    exact .ok (happend hes) h₁ h₂ (hT hS)
  | error hes h₁ h₂ =>
    rw [List.append_assoc] at h₁ h₂
    exact .error (happend hes) h₁ h₂

/-- What the closures are that were wrapped, and what is known of the second run when the first one
has come to its end. -/
theorem exists_closures (h : Repetition i ds ds' S r₁ r₂) :
    ∃ cs : List Closure, (∀ c ∈ cs, c.IsFresh) ∧ i.Read (ds ++ cs) r₁.2 ∧ i.Read (ds' ++ cs) r₂.2 ∧
      (∀ x, r₁.1 = .error x → r₂.1 = .error x) ∧
      ∀ a, r₁.1 = .ok a → ∃ b, r₂.1 = .ok b ∧
        S (i.closures.size + ds.length) (i.closures.size + ds'.length) a b cs := by
  cases h with
  | ok hcs h₁ h₂ hS => exact ⟨_, hcs, h₁, h₂, nofun, fun _ ha => ⟨_, rfl, Except.ok.inj ha ▸ hS⟩⟩
  | error hcs h₁ h₂ => exact ⟨_, hcs, h₁, h₂, fun _ hx => hx, nofun⟩

end Repetition

/-- Wherever reading has led from `i`, the effect only reads, and does so alike. -/
def Repeats (i : Instance Code) (e : Effect Code α) (S : Renewal α) : Prop :=
  ∀ ds ds' i₁ i₂, i.Read ds i₁ → i.Read ds' i₂ → Repetition i ds ds' S (exec e i₁) (exec e i₂)

namespace Repeats

variable {e : Effect Code α} {f f' : α → Effect Code β} {S : Renewal α} {T : Renewal β}
  {U : Renewal γ}

/-- An effect that wraps no closure and answers the same. -/
theorem of_exec {r : Except Fault α} (h : ∀ {ds i'}, i.Read ds i' → ∃ i'', exec e i' = (r, i'') ∧
    i.Read ds i'') (hS : ∀ a n n', r = .ok a → S n n' a a []) : Repeats i e S := by
  intro ds ds' i₁ i₂ hi₁ hi₂
  obtain ⟨j₁, hexec₁, hj₁⟩ := h hi₁
  obtain ⟨j₂, hexec₂, hj₂⟩ := h hi₂
  rw [← List.append_nil ds] at hj₁
  rw [← List.append_nil ds'] at hj₂
  rw [hexec₁, hexec₂]
  cases r with
  | error x => exact .error (List.forall_mem_nil _) hj₁ hj₂
  | ok a => exact .ok (List.forall_mem_nil _) hj₁ hj₂ (hS a _ _ rfl)

/-- An answer that is there is the same again, if it is related to itself. -/
theorem pure {a : α} (h : ∀ n n', S n n' a a []) : Repeats i (pure a : Effect Code α) S :=
  of_exec (fun hi => ⟨_, exec_pure a _, hi⟩) fun _ n n' ha => Except.ok.inj ha ▸ h n n'

/-- A fault is the same again. -/
theorem throw (x : Fault) : Repeats i (throw x : Effect Code α) S :=
  of_exec (fun hi => ⟨_, exec_throw x _, hi⟩) nofun

/-- A check comes out the same again. -/
theorem lift (r : Except Fault α) : Repeats i (liftM r : Effect Code α) .same :=
  of_exec (fun hi => ⟨_, exec_liftExcept r _, hi⟩) fun _ _ _ _ => ⟨rfl, rfl⟩

/-- The same answers are related when every answer is to itself. -/
theorem of_same (he : Repeats i e .same) (hS : ∀ n n' a, S n n' a a []) : Repeats i e S := by
  intro ds ds' i₁ i₂ hi₁ hi₂
  have h := he _ _ _ _ hi₁ hi₂
  revert h
  generalize exec e i₁ = r₁
  generalize exec e i₂ = r₂
  rintro (⟨hcs, h₁, h₂, rfl, rfl⟩ | ⟨hcs, h₁, h₂⟩)
  · exact .ok hcs h₁ h₂ (hS _ _ _)
  · exact .error hcs h₁ h₂

/-- The views are the same again, whether they were published before or are published now. -/
theorem views : Repeats i (Effect.views : Effect Code Views) .same :=
  of_exec Instance.Read.exec_views fun _ _ _ _ => ⟨rfl, rfl⟩

/-- A closure is wrapped under the number that is next. -/
theorem wrap {S : Renewal Value} (kind : ClosureKind) (adapter pointer deallocator : UInt32)
    (hS : ∀ n n', S n n' (.closure n) (.closure n') [{ kind, adapter, pointer, deallocator }]) :
    Repeats i (Effect.wrap kind adapter pointer deallocator) S := by
  intro ds ds' i₁ i₂ hi₁ hi₂
  obtain ⟨j₁, hexec₁, hj₁⟩ := hi₁.exec_wrap kind adapter pointer deallocator
  obtain ⟨j₂, hexec₂, hj₂⟩ := hi₂.exec_wrap kind adapter pointer deallocator
  rw [hexec₁, hexec₂]
  refine .ok (fun c hc => ?_) hj₁ hj₂ (hS _ _)
  obtain rfl := List.mem_singleton.1 hc
  exact ⟨rfl, rfl, rfl⟩

/-- An effect that begins by looking at what reading leaves as it was. -/
theorem get {f : Instance Code → Effect Code β} (hf : ∀ ds i', i.Read ds i' → f i' = f i)
    (h : Repeats i (f i) T) : Repeats i (MonadState.get >>= f : Effect Code β) T := by
  intro ds ds' i₁ i₂ hi₁ hi₂
  rw [exec_bind_of_ok (exec_get i₁), exec_bind_of_ok (exec_get i₂), hf _ _ hi₁, hf _ _ hi₂]
  exact h _ _ _ _ hi₁ hi₂

/-- An event before an effect changes nothing about it. -/
theorem record (event : Event) {rest : Unit → Effect Code β} (h : Repeats i (rest ()) T) :
    Repeats i (Effect.record event >>= rest) T :=
  fun _ _ _ _ hi₁ hi₂ => h _ _ _ _ (hi₁.log event) (hi₂.log event)

/-! ## One effect after the other -/

/-- A fault ends both runs, and answers are gone on with on either side. -/
theorem next {ds ds' : List Closure} (he : Repeats i e S) (hi₁ : i.Read ds i₁)
    (hi₂ : i.Read ds' i₂)
    (hok : ∀ {a b cs j₁ j₂}, (∀ c ∈ cs, c.IsFresh) → i.Read (ds ++ cs) j₁ →
      i.Read (ds' ++ cs) j₂ →
      S (i.closures.size + ds.length) (i.closures.size + ds'.length) a b cs →
      Repetition i ds ds' T (exec (f a) j₁) (exec (f' b) j₂)) :
    Repetition i ds ds' T (exec (e >>= f) i₁) (exec (e >>= f') i₂) := by
  have h := he _ _ _ _ hi₁ hi₂
  rw [exec_bind, exec_bind]
  revert h
  generalize exec e i₁ = r₁
  generalize exec e i₂ = r₂
  rintro (⟨hcs, h₁, h₂, hS⟩ | ⟨hcs, h₁, h₂⟩)
  · exact hok hcs h₁ h₂ hS
  · exact .error hcs h₁ h₂

/-- What follows an effect that answers the same. -/
theorem look (he : Repeats i e .same) (hf : ∀ a, Repeats i (f a) T) : Repeats i (e >>= f) T := by
  refine fun ds ds' i₁ i₂ hi₁ hi₂ => he.next hi₁ hi₂ fun {a b cs j₁ j₂} _ h₁ h₂ hab => ?_
  obtain ⟨rfl, rfl⟩ := hab
  rw [List.append_nil] at h₁ h₂
  exact hf a _ _ _ _ h₁ h₂

/-- What is made of the answer alone. -/
theorem map {g : α → γ} (he : Repeats i e S)
    (h : ∀ {n n' a b cs}, S n n' a b cs → U n n' (g a) (g b) cs) :
    Repeats i (e >>= fun a => Pure.pure (g a)) U :=
  fun _ _ _ _ hi₁ hi₂ => he.next hi₁ hi₂ fun hcs h₁ h₂ hS => .ok hcs h₁ h₂ (h hS)

/-- What is made of two answers, neither of which depends on the other. -/
theorem join {g : α → β → γ} {e' : Effect Code β} (he : Repeats i e S) (he' : Repeats i e' T)
    (h : ∀ {n n' a a' cs b b' ds}, S n n' a a' cs → T (n + cs.length) (n' + cs.length) b b' ds →
      U n n' (g a b) (g a' b') (cs ++ ds)) :
    Repeats i (e >>= fun a => e' >>= fun b => Pure.pure (g a b)) U := by
  refine fun ds ds' i₁ i₂ hi₁ hi₂ => he.next hi₁ hi₂ fun {a a' cs j₁ j₂} hcs h₁ h₂ hS => ?_
  refine .shift hcs (he'.next h₁ h₂ (T := fun n n' c c' es =>
    ∃ b b', T n n' b b' es ∧ g a b = c ∧ g a' b' = c') fun hes k₁ k₂ hT =>
      .ok hes k₁ k₂ ⟨_, _, hT, rfl, rfl⟩) ?_
  rintro _ _ es ⟨b, b', hT, rfl, rfl⟩
  exact h hS hT

/-- What is read one after the other, when `U` relates lists item by item. -/
theorem mapM {f : α → Effect Code β} {U : Renewal (List β)} (hf : ∀ a, Repeats i (f a) T)
    (hnil : ∀ n n', U n n' [] [] [])
    (hcons : ∀ {n n' b b' cs bs bs' ds}, T n n' b b' cs →
      U (n + cs.length) (n' + cs.length) bs bs' ds → U n n' (b :: bs) (b' :: bs') (cs ++ ds))
    (as : List α) : Repeats i (as.mapM f) U := by
  induction as with
  | nil =>
    rw [List.mapM_nil]
    exact pure hnil
  | cons a as ih =>
    rw [List.mapM_cons]
    exact (hf a).join ih hcons

/-! ## Words, kinds and texts -/

variable {address : UInt32}

/-- A buffer is the same again. -/
theorem buffer (id : Nat) : Repeats i (buffer id) .same :=
  get (fun _ _ hi => by rw [hi.guest]) (pure fun _ _ => ⟨rfl, rfl⟩)

/-- An element is loaded again as the same one. -/
theorem load (id : Nat) (k : ElementKind) : Repeats i (load id k address) .same :=
  (buffer id).look fun _ => lift _

/-- A part of a slot is found again at the same address. -/
theorem slotPart (v : Views) (part : Option UInt32) :
    Repeats i (slotPart v address part) .same := by
  unfold Effect.slotPart
  split
  · exact pure fun _ _ => ⟨rfl, rfl⟩
  · exact (buffer _).look fun _ => throw _

/-- A word of a slot is read again as the same one. -/
theorem readWord (index : UInt32) : Repeats i (readWord address index) .same :=
  views.look fun _ => (slotPart _ _).look fun _ => load _ _

/-- The kind of a slot is the same again. -/
theorem kindAt : Repeats i (kindAt address) .same :=
  views.look fun _ => (slotPart _ _).look fun _ =>
    ((buffer _).look fun _ => lift _).look fun _ => lift _

/-- The bytes of a text are read again as the same ones. -/
theorem loadText (pointer length : UInt32) : Repeats i (loadText pointer length) .same :=
  views.look fun _ => ((buffer _).look fun _ => lift _).look fun _ =>
    get (fun _ _ hi => by rw [hi.config]) (pure fun _ _ => ⟨rfl, rfl⟩)

/-! ## Tables -/

/-- A table is found again at the same address. -/
theorem tableAt (index : UInt32) : Repeats i (tableAt address index) .same :=
  (readWord _).look fun _ =>
    get (fun _ _ hi => by rw [hi.arena]) (pure fun _ _ => ⟨rfl, rfl⟩)

/-- A table passes the check again or fails it again. -/
theorem checkTable (base count stride : UInt32) :
    Repeats i (checkTable base count stride) .same :=
  views.look fun _ => (buffer _).look fun _ => lift _

/-- An entry is found again at the same address. -/
theorem entryAddress (base index stride : UInt32) :
    Repeats i (entryAddress base index stride) .same := by
  unfold Effect.entryAddress
  split
  · exact pure fun _ _ => ⟨rfl, rfl⟩
  · exact views.look fun _ => (buffer _).look fun _ => throw _

/-- A handle stands again for the same value. -/
theorem getHandle (id : UInt32) : Repeats i (getHandle id) .same :=
  get (fun _ _ hi => by rw [hi.handles]) (lift _)

/-- So does a number. -/
theorem getRaw (id : UInt32) : Repeats i (getRaw id) .same :=
  get (fun _ _ hi => by rw [hi.raw]) (lift _)

end Repeats

end

end Crossing
