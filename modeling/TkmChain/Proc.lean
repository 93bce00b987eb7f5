import Mathlib

/-!
# Procedures that write a state and may fail

A procedure keeps the state it had written when it stops with an error, as
imperative code with early returns does. Running it is inverted step by step
(`bind_ok`, `read_ok`, ...). `Moves R` bounds what a run may do to the state
whether it fails or not, and `Atomic` says that a failed run leaves it alone.
-/

/-- A guard: the error `e` when `bad` holds. -/
def failIf {ε : Type} (bad : Prop) [Decidable bad] (e : ε) : Except ε Unit :=
  if bad then .error e else .ok ()

theorem failIf_ok [Decidable bad] :
    failIf bad e = .ok u ↔ ¬ bad := by
  unfold failIf
  split
  · rename_i h; simp [h]
  · rename_i h; simp [h]

theorem except_bind_ok {ε α β : Type} {x : Except ε α} {f : α → Except ε β} {b : β} :
    (x >>= f) = .ok b ↔ ∃ a, x = .ok a ∧ f a = .ok b := by
  cases x with
  | error e => simp [bind, Except.bind]
  | ok a => simp [bind, Except.bind]

theorem failIf_error [Decidable bad] : failIf bad e = .error e' ↔ bad ∧ e = e' := by
  unfold failIf
  split
  · rename_i h; simp [h]
  · rename_i h; simp [h]

theorem except_bind_error {ε α β : Type} {x : Except ε α} {f : α → Except ε β} {e : ε} :
    (x >>= f) = .error e ↔ x = .error e ∨ ∃ a, x = .ok a ∧ f a = .error e := by
  cases x with
  | error e => simp [bind, Except.bind]
  | ok a => simp [bind, Except.bind]

theorem except_pure_ok : (pure a : Except ε α) = .ok b ↔ a = b := by
  simp [pure, Except.pure]

theorem except_exists_of_isOk {ε α : Type} {x : Except ε α} (h : x.isOk = true) : ∃ a, x = .ok a := by
  cases x with
  | ok a => exact ⟨a, rfl⟩
  | error e => cases h

theorem except_ok_of_isOk {ε : Type} {x : Except ε Unit} (h : x.isOk = true) : x = .ok () :=
  (except_exists_of_isOk h).choose_spec

def orFail {ε α : Type} (x : Option α) (e : ε) : Except ε α :=
  match x with
  | some a => .ok a
  | none => .error e

theorem orFail_ok : orFail x e = .ok a ↔ x = some a := by
  cases x <;> simp [orFail]

theorem except_map_ok {ε α β : Type} {x : Except ε α} {f : α → β} {b : β} :
    x.map f = .ok b ↔ ∃ a, x = .ok a ∧ f a = b := by
  cases x <;> simp [Except.map]

theorem except_mapError_ok {ε δ α : Type} {x : Except ε α} {f : ε → δ} {a : α} :
    x.mapError f = .ok a ↔ x = .ok a := by
  cases x <;> simp [Except.mapError]

/-- What the steps of a block that succeeds have passed. -/
theorem ok_rules :
    (∀ {ε α β : Type} {x : Except ε α} {f : α → Except ε β} {b : β},
      (x >>= f) = .ok b ↔ ∃ a, x = .ok a ∧ f a = .ok b) ∧
    (∀ {ε : Type} {bad : Prop} [Decidable bad] {e : ε} {u : Unit}, failIf bad e = .ok u ↔ ¬ bad) ∧
    (∀ {ε α : Type} {a b : α}, (pure a : Except ε α) = .ok b ↔ a = b) ∧
    (∀ {ε δ α : Type} {x : Except ε α} {f : ε → δ} {a : α}, x.mapError f = .ok a ↔ x = .ok a) ∧
    ∀ {ε α : Type} {x : Option α} {e : ε} {a : α}, orFail x e = .ok a ↔ x = some a :=
  ⟨except_bind_ok, failIf_ok, except_pure_ok, except_mapError_ok, orFail_ok⟩

def checkWhen {ε : Type} (p : Bool) (x : Except ε Unit) : Except ε Unit := if p then x else .ok ()

theorem checkWhen_ok :
    checkWhen p x = .ok u ↔ (p = true → x = .ok ()) := by
  cases p <;> simp [checkWhen]

def checkAll {ε α : Type} (f : α → Except ε Unit) : List α → Except ε Unit
  | [] => .ok ()
  | a :: l => f a >>= fun _ => checkAll f l

theorem checkAll_ok {ε α : Type} {f : α → Except ε Unit} {u : Unit} :
    ∀ {l : List α}, checkAll f l = .ok u ↔ ∀ a ∈ l, f a = .ok ()
  | [] => by simp [checkAll]
  | a :: l => by
    rw [checkAll, except_bind_ok, List.forall_mem_cons]
    constructor
    · rintro ⟨_, ha, hl⟩; exact ⟨ha, checkAll_ok.mp hl⟩
    · rintro ⟨ha, hl⟩; exact ⟨(), ha, checkAll_ok.mpr hl⟩

def Proc (σ ε α : Type) : Type := σ → Except ε α × σ

namespace Proc

variable {σ ε α β : Type}

instance : Monad (Proc σ ε) where
  pure a := fun s => (.ok a, s)
  bind x f := fun s => match x s with
    | (.ok a, t) => f a t
    | (.error e, t) => (.error e, t)

def read (f : σ → Except ε α) : Proc σ ε α := fun s => (f s, s)

def modify (f : σ → σ) : Proc σ ε Unit := fun s => (.ok (), f s)

def orRevert (x : Proc σ ε α) : Proc σ ε α := fun s => match x s with
  | (.ok a, t) => (.ok a, t)
  | (.error e, _) => (.error e, s)

def each (f : α → Proc σ ε Unit) : List α → Proc σ ε Unit
  | [] => pure ()
  | a :: l => f a >>= fun _ => each f l

def runWhen (p : Bool) (x : Proc σ ε Unit) : Proc σ ε Unit := if p then x else pure ()

/-- A procedure on the part `get` of a larger state. -/
def zoom (get : τ → σ) (set : τ → σ → τ) (x : Proc σ ε α) : Proc τ ε α :=
  fun t => ((x (get t)).1, set t (x (get t)).2)

theorem runWhen_false (x : Proc σ ε Unit) : runWhen false x = pure () := rfl

theorem runWhen_true (x : Proc σ ε Unit) : runWhen true x = x := rfl

/-! ## Inversion of a successful run -/

theorem bind_apply (x : Proc σ ε α) (f : α → Proc σ ε β) (s : σ) : (x >>= f) s = match x s with
    | (.ok a, t) => f a t
    | (.error e, t) => (.error e, t) := rfl

theorem guard_bind [DecidablePred p] :
    (read (fun s => failIf (p s) e) >>= f) s = if p s then (.error e, s) else f () s := by
  rw [bind_apply, read]
  unfold failIf
  split <;> rename_i h <;> split at h <;> simp_all

theorem pure_ok : (pure a : Proc σ ε α) s = (.ok b, t) ↔ a = b ∧ s = t := by
  simp [pure]

def Succeeds (x : Proc σ ε α) (s : σ) : Prop := ∃ a t, x s = (.ok a, t)

theorem exists_of_isOk {x : Proc σ ε α} {s : σ} (h : (x s).1.isOk = true) : Succeeds x s := by
  obtain ⟨a, ha⟩ := except_exists_of_isOk h
  exact ⟨a, (x s).2, Prod.ext ha rfl⟩

theorem ok_of_isOk {x : Proc σ ε Unit} {s : σ} (h : (x s).1.isOk = true) : x s = (.ok (), (x s).2) :=
  Prod.ext (except_ok_of_isOk h) rfl

theorem bind_ok {x : Proc σ ε α} {f : α → Proc σ ε β} {s t : σ} {b : β} :
    (x >>= f) s = (.ok b, t) ↔ ∃ a u, x s = (.ok a, u) ∧ f a u = (.ok b, t) := by
  rw [bind_apply]
  split
  · rename_i a u h
    rw [h]
    constructor
    · intro hf; exact ⟨a, u, rfl, hf⟩
    · rintro ⟨_, _, hau, hf⟩; cases hau; exact hf
  · rename_i e u h; rw [h]; simp

theorem pure_bind (a : α) (f : α → Proc σ ε β) : (pure a >>= f) = f a := rfl

theorem bind_unit (x : Proc σ ε Unit) : (x >>= fun _ => pure ()) = x := by
  funext s
  rw [bind_apply]
  split
  · rename_i h; rw [h]; rfl
  · rename_i h; rw [h]

theorem bind_assoc (x : Proc σ ε α) (f : α → Proc σ ε β) (g : β → Proc σ ε γ) :
    ((x >>= f) >>= g) = x >>= fun a => f a >>= g := by
  funext s
  rw [bind_apply, bind_apply, bind_apply]
  cases x s with
  | mk r t =>
    cases r with
    | error e => rfl
    | ok a => rfl

theorem bind_error {x : Proc σ ε α} {f : α → Proc σ ε β} {s t : σ} {e : ε} :
    (x >>= f) s = (.error e, t) ↔ x s = (.error e, t) ∨ ∃ a u, x s = (.ok a, u) ∧ f a u = (.error e, t) := by
  rw [bind_apply]
  split
  · rename_i a u h
    rw [h]
    constructor
    · intro hf; exact .inr ⟨a, u, rfl, hf⟩
    · rintro (hx | ⟨_, _, hau, hf⟩)
      · simp at hx
      · cases hau; exact hf
  · rename_i e' u h
    rw [h]
    simp

theorem read_error : read f s = (.error e, t) ↔ f s = .error e ∧ s = t := by
  simp [read]

theorem read_ok : read f s = (.ok a, t) ↔ f s = .ok a ∧ s = t := by
  simp [read]

theorem modify_ok :
    (modify f : Proc σ ε Unit) s = (.ok u, t) ↔ f s = t := by
  simp [modify]

/-- What the steps of a procedure that succeeds have passed, in the states they started from. -/
theorem run_rules :
    (∀ {σ ε α β : Type} {x : Proc σ ε α} {f : α → Proc σ ε β} {s t : σ} {b : β},
      (x >>= f) s = (.ok b, t) ↔ ∃ a u, x s = (.ok a, u) ∧ f a u = (.ok b, t)) ∧
    (∀ {σ ε α : Type} {f : σ → Except ε α} {s t : σ} {a : α}, read f s = (.ok a, t) ↔ f s = .ok a ∧ s = t) ∧
    (∀ {σ ε : Type} {f : σ → σ} {s t : σ} {u : Unit}, (modify f : Proc σ ε Unit) s = (.ok u, t) ↔ f s = t) ∧
    (∀ {σ ε α : Type} {s t : σ} {a b : α}, (pure a : Proc σ ε α) s = (.ok b, t) ↔ a = b ∧ s = t) ∧
    (∀ {σ : Type} {s : σ} {p : Prop} {q : σ → Prop}, (∃ t, (p ∧ s = t) ∧ q t) ↔ p ∧ q s) ∧
    (∀ {σ : Type} {s : σ} {q : σ → Prop}, (∃ t, s = t ∧ q t) ↔ q s) ∧
    ∀ {q : Unit → Prop}, (∃ u, q u) ↔ q () :=
  ⟨bind_ok, read_ok, modify_ok, pure_ok, ⟨fun ⟨_, ⟨hp, h⟩, hq⟩ => ⟨hp, h ▸ hq⟩, fun ⟨hp, hq⟩ => ⟨_, ⟨hp, rfl⟩, hq⟩⟩,
    exists_eq_left', ⟨fun ⟨_, h⟩ => h, fun h => ⟨(), h⟩⟩⟩

theorem succeeds_read_bind {f : σ → Except ε α} {g : α → Proc σ ε β} {s : σ} :
    (read f >>= g).Succeeds s ↔ ∃ a, f s = .ok a ∧ (g a).Succeeds s := by
  constructor
  · rintro ⟨b, t, h⟩
    obtain ⟨a, _, hread, h⟩ := bind_ok.mp h
    obtain ⟨ha, rfl⟩ := read_ok.mp hread
    exact ⟨a, ha, b, t, h⟩
  · rintro ⟨a, ha, b, t, h⟩
    exact ⟨b, t, bind_ok.mpr ⟨a, s, read_ok.mpr ⟨ha, rfl⟩, h⟩⟩

theorem succeeds_modify : (modify f : Proc σ ε Unit).Succeeds s := ⟨(), f s, rfl⟩

theorem succeeds_modify_bind :
    (modify f >>= g).Succeeds s ↔ (g ()).Succeeds (f s) := Iff.rfl

theorem runWhen_ok :
    runWhen p x s = (.ok u, t) ↔ (p = true ∧ x s = (.ok (), t)) ∨ (p = false ∧ s = t) := by
  cases p with
  | false => simp [runWhen_false, pure_ok]
  | true => simp [runWhen_true]

theorem orRevert_ok : orRevert x s = (.ok a, t) ↔ x s = (.ok a, t) := by
  unfold orRevert
  split
  · rename_i b u h; rw [h]
  · rename_i e u h; rw [h]; simp

theorem zoom_ok {get : τ → σ} {set : τ → σ → τ} {x : Proc σ ε α} {t t' : τ} {a : α} :
    zoom get set x t = (.ok a, t') ↔ ∃ s, x (get t) = (.ok a, s) ∧ set t s = t' := by
  unfold zoom
  rcases x (get t) with ⟨r, s⟩
  simp only [Prod.mk.injEq]
  constructor
  · rintro ⟨rfl, rfl⟩; exact ⟨s, ⟨rfl, rfl⟩, rfl⟩
  · rintro ⟨_, ⟨rfl, rfl⟩, rfl⟩; exact ⟨rfl, rfl⟩

theorem zoom_bind {get : τ → σ} {set : τ → σ → τ} (hget : ∀ t s, get (set t s) = s)
    (hset : ∀ t s s', set (set t s) s' = set t s') (x : Proc σ ε α) (f : α → Proc σ ε β) :
    zoom get set (x >>= f) = zoom get set x >>= fun a => zoom get set (f a) := by
  funext t
  rw [bind_apply]
  unfold zoom
  rw [bind_apply]
  cases x (get t) with
  | mk r s =>
    cases r with
    | error e => rfl
    | ok a => simp only [hget, hset]

/-! ## What a run may do to the state -/

/-- Every run, failed or not, moves the state within `R`. -/
def Moves (R : σ → σ → Prop) (x : Proc σ ε α) : Prop := ∀ s, R s (x s).2

section
variable {R : σ → σ → Prop} [Std.Refl R] [IsTrans σ R]

omit [IsTrans σ R] in
theorem Moves.pure (a : α) : Moves R (pure a : Proc σ ε α) := fun s => Std.Refl.refl s

omit [IsTrans σ R] in
theorem Moves.read (f : σ → Except ε α) : Moves R (read f) := fun s => Std.Refl.refl s

omit [Std.Refl R] in
theorem Moves.bind (hx : Moves R x) (hf : ∀ a, Moves R (f a)) :
    Moves R (x >>= f) := by
  intro s
  have hs := hx s
  rw [bind_apply]
  split
  · rename_i a u h; rw [h] at hs; exact IsTrans.trans _ _ _ hs (hf a u)
  · rename_i e u h; rw [h] at hs; exact hs

theorem Moves.read_bind (hg : ∀ a, Moves R (g a)) :
    Moves R (Proc.read f >>= g) := Moves.bind (Moves.read f) hg

theorem Moves.each_mem : ∀ {l : List α}, (∀ a ∈ l, Moves R (f a)) → Moves R (each f l)
  | [], _ => Moves.pure ()
  | a :: l, h => Moves.bind (h a (by simp)) fun _ => Moves.each_mem fun b hb => h b (by simp [hb])

theorem Moves.each (hf : ∀ a, Moves R (f a)) (l : List α) : Moves R (each f l) :=
  Moves.each_mem fun a _ => hf a

omit [IsTrans σ R] in
theorem Moves.orRevert (hx : Moves R x) : Moves R (orRevert x) := by
  intro s
  have hs := hx s
  unfold Proc.orRevert
  split
  · rename_i a t h; rw [h] at hs; exact hs
  · exact Std.Refl.refl s

end

theorem Moves.zoom {R : σ → σ → Prop} {S : τ → τ → Prop} {get : τ → σ} {set : τ → σ → τ} {x : Proc σ ε α}
    (hx : Moves R x) (h : ∀ t s, R (get t) s → S t (set t s)) : Moves S (zoom get set x) :=
  fun t => h t _ (hx (get t))

theorem Moves.ite [Decidable p] (hx : Moves R x) (hy : Moves R y) :
    Moves R (if p then x else y) := by
  split
  · exact hx
  · exact hy

theorem Moves.mono (hx : Moves R x) (h : ∀ s t, R s t → S s t) : Moves S x :=
  fun s => h s _ (hx s)

theorem Moves.modify (h : ∀ s, R s (f s)) :
    Moves R (modify f : Proc σ ε Unit) := h

theorem Moves.ok (hx : Moves R x) (h : x s = (.ok a, t)) : R s t := by
  have := hx s; rw [h] at this; exact this

/-! ## Failed runs -/

/-- A failed run moves the state within `R`. -/
def Fails (R : σ → σ → Prop) (x : Proc σ ε α) : Prop := ∀ s e t, x s = (.error e, t) → R s t

theorem Moves.fails (hx : Moves R x) : Fails R x := by
  intro s e t h
  have hs := hx s
  rw [h] at hs
  exact hs

theorem Fails.bind {R : σ → σ → Prop} [IsTrans σ R] {x : Proc σ ε α} {f : α → Proc σ ε β} (hx : Moves R x)
    (hf : ∀ a, Fails R (f a)) : Fails R (x >>= f) := by
  intro s e t h
  rcases bind_error.mp h with h | ⟨a, u, hxa, hfa⟩
  · exact hx.fails s e t h
  · exact IsTrans.trans _ _ _ (hx.ok hxa) (hf a u e t hfa)

def Atomic (x : Proc σ ε α) : Prop := ∀ s e t, x s = (.error e, t) → t = s

def Total (x : Proc σ ε α) : Prop := ∀ s, ∃ a t, x s = (.ok a, t)

theorem Atomic.orRevert (x : Proc σ ε α) : Atomic (orRevert x) := by
  intro s e t h
  unfold Proc.orRevert at h
  split at h
  · simp at h
  · simp only [Prod.mk.injEq] at h; exact h.2.symm

theorem Atomic.zoom {get : τ → σ} {set : τ → σ → τ} (hs : ∀ t, set t (get t) = t) {x : Proc σ ε α}
    (hx : Atomic x) : Atomic (zoom get set x) := by
  intro t e t' h
  simp only [Proc.zoom, Prod.mk.injEq] at h
  have : (x (get t)).2 = get t := hx (get t) e _ (Prod.ext h.1 rfl)
  rw [← h.2, this, hs]

theorem Atomic.read_bind (hg : ∀ a, Atomic (g a)) :
    Atomic (Proc.read f >>= g) := by
  intro s e t h
  rw [bind_apply] at h
  unfold Proc.read at h
  cases hf : f s with
  | error e' => rw [hf] at h; simp only [Prod.mk.injEq] at h; exact h.2.symm
  | ok a => rw [hf] at h; exact hg a s e t h

theorem Atomic.bind_total (hx : Atomic x) (hf : ∀ a, Total (f a)) :
    Atomic (x >>= f) := by
  intro s e t h
  rw [bind_apply] at h
  split at h
  · rename_i a u _
    obtain ⟨b, v, hb⟩ := hf a u
    rw [hb] at h; simp at h
  · rename_i e' u hx'
    simp only [Prod.mk.injEq] at h
    exact h.2 ▸ hx s e' u hx'

theorem Atomic.ite [Decidable p] (hx : Atomic x) (hy : Atomic y) :
    Atomic (if p then x else y) := by
  split
  · exact hx
  · exact hy

theorem Fails.bind_total {R : σ → σ → Prop} {x : Proc σ ε α} {f : α → Proc σ ε β} (hx : Fails R x)
    (hf : ∀ a, Total (f a)) : Fails R (x >>= f) := by
  intro s e t h
  rcases bind_error.mp h with h | ⟨a, u, _, hfa⟩
  · exact hx s e t h
  · obtain ⟨b, v, hb⟩ := hf a u
    rw [hb] at hfa
    simp at hfa

theorem Total.fails (hx : Total x) : Fails R x := by
  intro s e t h
  obtain ⟨a, u, ha⟩ := hx s
  rw [ha] at h; simp at h

theorem Total.atomic (hx : Total x) : Atomic x := fun s e t h =>
  hx.fails (R := fun s t => t = s) s e t h

theorem Total.modify (f : σ → σ) : Total (modify f : Proc σ ε Unit) := fun s => ⟨(), f s, rfl⟩

theorem Total.bind {x : Proc σ ε α} {f : α → Proc σ ε β} (hx : Total x) (hf : ∀ a, Total (f a)) : Total (x >>= f) := by
  intro s
  obtain ⟨a, t, h⟩ := hx s
  obtain ⟨b, u, h'⟩ := hf a t
  exact ⟨b, u, bind_ok.mpr ⟨a, t, h, h'⟩⟩

theorem Total.pure (a : α) : Total (pure a : Proc σ ε α) := fun s => ⟨a, s, rfl⟩

end Proc
