import TkmChain.Proc

/-!
# Paged reads

A client reads a list of known length in pages and handles the items one by one. When the
pages are those of one list, the result is that of a walk over the list.
-/

namespace Pages

open List

variable {ε α σ : Type}

def walk (step : Nat → α → σ → Except ε σ) : Nat → List α → σ → Except ε σ
  | _, [], s => .ok s
  | i, x :: xs, s => do
    let s ← step i x s
    walk step (i + 1) xs s

/-- Reads the items from `start` on in pages; `fuel` bounds the number of pages. -/
def fetchAll (size count : Nat) (fetch : Nat → Nat → Except ε (List α)) (incomplete : Nat → ε)
    (step : Nat → α → σ → Except ε σ) : Nat → Nat → σ → Except ε σ
  | 0, _, s => .ok s
  | fuel + 1, start, s =>
    if start < count then do
      let limit := min size (count - start)
      let page ← fetch start limit
      failIf (page.length ≠ limit) (incomplete start)
      let s ← walk step start page s
      fetchAll size count fetch incomplete step fuel (start + limit) s
    else .ok s

def Serves (size : Nat) (fetch : Nat → Nat → Except ε (List α)) (xs : List α) : Prop :=
  ∀ start limit, 0 < limit → limit ≤ size → start + limit ≤ xs.length →
    fetch start limit = .ok ((xs.drop start).take limit)

variable {size : Nat} {fetch : Nat → Nat → Except ε (List α)} {incomplete : Nat → ε}
  {step : Nat → α → σ → Except ε σ} {xs ys : List α}

theorem Serves.mapError (h : Serves size fetch xs) (text : Nat → ε → δ) :
    Serves size (fun start limit => (fetch start limit).mapError (text start)) xs := by
  intro start limit hpos hsize hlength
  simp only [h start limit hpos hsize hlength, Except.mapError]

theorem walk_append (xs ys : List α) (i : Nat) (s : σ) :
    walk step i (xs ++ ys) s = walk step i xs s >>= walk step (i + xs.length) ys := by
  induction xs generalizing i s with
  | nil => rfl
  | cons x xs ih =>
    simp only [cons_append, walk, length_cons]
    cases step i x s with
    | error e => rfl
    | ok s' =>
      have hindex : i + (xs.length + 1) = i + 1 + xs.length := by omega
      rw [hindex]
      exact ih (i + 1) s'

theorem walk_drop (start limit : Nat) (h : start + limit ≤ xs.length) (s : σ) :
    walk step start (xs.drop start) s =
      walk step start ((xs.drop start).take limit) s >>= walk step (start + limit) (xs.drop (start + limit)) := by
  have hlength : ((xs.drop start).take limit).length = limit := by
    rw [length_take, length_drop]
    omega
  nth_rewrite 1 [← take_append_drop limit (xs.drop start)]
  rw [walk_append, hlength, drop_drop]

theorem fetchAll_from (hsize : 0 < size) (h : Serves size fetch xs) (hfuel : xs.length - start ≤ fuel)
    (s : σ) : fetchAll size xs.length fetch incomplete step fuel start s = walk step start (xs.drop start) s := by
  induction fuel generalizing start s with
  | zero =>
    rw [drop_eq_nil_of_le (Nat.le_of_sub_eq_zero (Nat.le_zero.mp hfuel))]
    rfl
  | succ fuel ih =>
    rw [fetchAll]
    by_cases hstart : start < xs.length
    · obtain ⟨limit, hlimit⟩ : ∃ limit, limit = min size (xs.length - start) := ⟨_, rfl⟩
      have hpage : fetch start limit = .ok ((xs.drop start).take limit) := h start limit (by omega) (by omega) (by omega)
      have hlength : ¬ ((xs.drop start).take limit).length ≠ limit := by
        rw [length_take, length_drop]
        omega
      have hrest (s : σ) : fetchAll size xs.length fetch incomplete step fuel (start + limit) s =
          walk step (start + limit) (xs.drop (start + limit)) s := ih (by omega) s
      rw [if_pos hstart, walk_drop start limit (by omega)]
      simp only [← hlimit, hpage, hrest, failIf, if_neg hlength, bind, Except.bind]
    · rw [if_neg hstart, drop_eq_nil_of_le (Nat.le_of_not_lt hstart)]
      rfl

theorem fetchAll_eq_walk (hsize : 0 < size) (h : Serves size fetch xs) (s : σ) :
    fetchAll size xs.length fetch incomplete step xs.length 0 s = walk step 0 xs s :=
  fetchAll_from hsize h (Nat.sub_le _ _) s

/-! ## Steps that collect -/

def collect {β : Type} (item : Nat → α → Except ε (Option β)) (i : Nat) (x : α) (found : List β) : Except ε (List β) := do
  let y ← item i x
  return found ++ y.toList

variable {β : Type} {item : Nat → α → Except ε (Option β)}

theorem walk_collect (f : Nat → α → Option β) (i : Nat) (found : List β)
    (h : ∀ j x, xs[j]? = some x → item (i + j) x = .ok (f (i + j) x)) :
    walk (collect item) i xs found = .ok (found ++ (xs.zipIdx i).filterMap fun p => f p.2 p.1) := by
  induction xs generalizing i found with
  | nil => simp [walk]
  | cons x xs ih =>
    have hhead : item i x = .ok (f i x) := h 0 x rfl
    have htail := ih (i + 1) (found ++ (f i x).toList) fun j y hy => by
      have hitem := h (j + 1) y hy
      rwa [show i + (j + 1) = i + 1 + j by omega] at hitem
    simp only [walk, collect, hhead, bind, Except.bind, pure, Except.pure]
    change walk (collect item) (i + 1) xs (found ++ (f i x).toList) = _
    rw [htail, zipIdx_cons, filterMap_cons]
    cases f i x <;> simp

theorem item_of_walk_collect (h : walk (collect item) i xs found = .ok result)
    (hx : xs[j]? = some x) : ∃ y, item (i + j) x = .ok y := by
  induction xs generalizing i j found with
  | nil => cases hx
  | cons first xs ih =>
    simp only [walk, collect, ok_rules] at h
    obtain ⟨_, ⟨y, hy, rfl⟩, hrest⟩ := h
    cases j with
    | zero =>
      cases hx
      exact ⟨y, hy⟩
    | succ j =>
      rw [show i + (j + 1) = i + 1 + j by omega]
      exact ih hrest hx

end Pages
