import TkmChain.Proc

/-!
# Scripts

A program that acts on the outside world and may stop with an error, as the list of its
actions and its result. A crash leaves a prefix of the actions behind. A triple says what
holds after a run that succeeds, and that an invariant holds wherever the run stops.
-/

structure Script (A ε α : Type) where
  acts : List A
  result : Except ε α

namespace Script

open List

variable {A W ε α β : Type}

instance : Monad (Script A ε) where
  pure a := ⟨[], .ok a⟩
  bind x f := match x.result with
    | .error e => ⟨x.acts, .error e⟩
    | .ok a => ⟨x.acts ++ (f a).acts, (f a).result⟩

def lift (x : Except ε α) : Script A ε α := ⟨[], x⟩

def fail (e : ε) : Script A ε α := lift (.error e)

def stopIf (bad : Prop) [Decidable bad] (e : ε) : Script A ε Unit := lift (failIf bad e)

def act (a : A) (x : Except ε α) : Script A ε α := ⟨[a], x⟩

def mapError {δ : Type} (f : ε → δ) (s : Script A ε α) : Script A δ α := ⟨s.acts, s.result.mapError f⟩

def run (exec : W → A → W) (s : Script A ε α) (w : W) : W := s.acts.foldl exec w

protected theorem pure_bind (a : α) (f : α → Script A ε β) : ((pure a : Script A ε α) >>= f) = f a := rfl

theorem lift_ok_bind (h : x = .ok a) (f : α → Script A ε β) : (lift x >>= f) = f a := by
  subst h
  rfl

theorem stopIf_bind [Decidable bad] (h : ¬ bad) (e : ε) (f : Unit → Script A ε β) :
    (stopIf bad e >>= f) = f () :=
  lift_ok_bind (failIf_ok.mpr h) f

theorem ok_bind (acts : List A) (a : α) (f : α → Script A ε β) :
    ((⟨acts, .ok a⟩ : Script A ε α) >>= f) = ⟨acts ++ (f a).acts, (f a).result⟩ := rfl

variable {exec : W → A → W} {P I : W → Prop} {Q : α → W → Prop}

/-- From a world with `P`, the script ends with `Q` or fails, and `I` holds wherever it stops. -/
def Triple (exec : W → A → W) (P I : W → Prop) (s : Script A ε α) (Q : α → W → Prop) : Prop :=
  ∀ w, P w → (∀ n, I ((s.acts.take n).foldl exec w)) ∧ ∀ a, s.result = .ok a → Q a (s.run exec w)

theorem triple_lift {x : Except ε α} (hI : ∀ w, P w → I w) (hQ : ∀ w a, P w → x = .ok a → Q a w) :
    Triple exec P I (lift x) Q := by
  refine fun w hw => ⟨fun n => ?_, fun a ha => hQ w a hw ha⟩
  rw [lift, take_nil]
  exact hI w hw

theorem triple_pure {a : α} (hI : ∀ w, P w → I w) (hQ : ∀ w, P w → Q a w) : Triple exec P I (pure a : Script A ε α) Q :=
  triple_lift hI fun w _ hw ha => Except.ok.inj ha ▸ hQ w hw

theorem triple_fail {e : ε} (hI : ∀ w, P w → I w) : Triple exec P I (fail e : Script A ε α) Q :=
  triple_lift hI nofun

theorem triple_act {a : A} {x : Except ε α} (hI : ∀ w, P w → I w) (hI' : ∀ w, P w → I (exec w a))
    (hQ : ∀ w b, P w → x = .ok b → Q b (exec w a)) : Triple exec P I (act a x) Q := by
  refine fun w hw => ⟨fun n => ?_, fun b hb => hQ w b hw hb⟩
  cases n with
  | zero => exact hI w hw
  | succ n =>
    rw [act, take_succ_cons, take_nil]
    exact hI' w hw

theorem Triple.mapError (h : Triple exec P I s Q) :
    Triple exec P I (s.mapError f) Q :=
  fun w hw => ⟨(h w hw).1, fun a ha => (h w hw).2 a (except_mapError_ok.mp ha)⟩

theorem triple_bind (hx : Triple exec P I x Q)
    (hf : ∀ a, x.result = .ok a → Triple exec (Q a) I (f a) R) : Triple exec P I (x >>= f) R := by
  intro w hw
  obtain ⟨hI, hQ⟩ := hx w hw
  cases hresult : x.result with
  | error e =>
    simp only [bind, hresult]
    exact ⟨hI, nofun⟩
  | ok a =>
    obtain ⟨hI', hR⟩ := hf a hresult _ (hQ a hresult)
    simp only [bind, hresult, run, foldl_append]
    refine ⟨fun n => ?_, hR⟩
    rw [take_append, foldl_append]
    by_cases hn : n ≤ x.acts.length
    · rw [Nat.sub_eq_zero_of_le hn, take_zero]
      exact hI n
    · rw [take_of_length_le (Nat.le_of_not_le hn)]
      exact hI' _

end Script
