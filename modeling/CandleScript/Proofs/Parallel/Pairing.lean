import CandleScript.Series

namespace CandleScript

-- A way to pair the lists of one run with those of another one, and the counts
-- they are fitted to. Every operation on series has to keep to it.
structure Pairing where
  lists : {α : Type} → List α → List α → Prop
  counts : Nat → Nat → Prop
  length : ∀ {α : Type} {s t : List α}, lists s t → counts s.length t.length
  max : ∀ {a a' b b' : Nat}, counts a a' → counts b b' → counts (Nat.max a b) (Nat.max a' b')
  replicate : ∀ {α : Type} (x : α) {k k' : Nat}, counts k k' →
    lists (List.replicate k x) (List.replicate k' x)
  scan : ∀ {σ α β : Type} (step : σ → α → β × σ) (state : σ) {s t : List α}, lists s t →
    lists (Series.scan step state s) (Series.scan step state t)
  zip : ∀ {α β : Type} {s t : List α} {u v : List β}, lists s t → lists u v →
    lists (s.zip u) (t.zip v)
  fit : ∀ {k k' : Nat} {s t : Series}, counts k k' → lists s t →
    lists (Series.fit k s) (Series.fit k' t)

namespace Series

variable {α β : Type}

theorem scan_eq_map (f : α → β) (s : List α) :
    scan (fun (state : Unit) x => (f x, state)) () s = s.map f := by
  induction s with
  | nil => rfl
  | cons x rest ih => simp only [scan, ih, List.map_cons]

-- Every value together with the one before it.
theorem scan_eq_zip (before : α) (s : List α) :
    scan (fun before x => ((before, x), x)) before s = (before :: s).zip s := by
  induction s generalizing before with
  | nil => rfl
  | cons x rest ih => simp only [scan, ih, List.zip_cons_cons]

-- The same beside a second list, which is not looked back at.
theorem scan_eq_zip_zip (before : α) (s : List α) (t : List β) :
    scan (fun before (x : α × β) => ((before, x), x.1)) before (s.zip t) =
      (before :: s).zip (s.zip t) := by
  induction s generalizing before t with
  | nil => rfl
  | cons x rest ih =>
      cases t with
      | nil => rfl
      | cons y others => simp only [List.zip_cons_cons, scan, ih]

end Series

namespace Pairing

variable (p : Pairing) {α β γ : Type} {s t : List α} {u v : List β}

theorem map (f : α → β) (hs : p.lists s t) : p.lists (s.map f) (t.map f) := by
  rw [← Series.scan_eq_map, ← Series.scan_eq_map]
  exact p.scan _ _ hs

theorem zipWith (f : α → β → γ) (hs : p.lists s t) (hu : p.lists u v) :
    p.lists (List.zipWith f s u) (List.zipWith f t v) := by
  rw [← List.map_uncurry_zip_eq_zipWith, ← List.map_uncurry_zip_eq_zipWith]
  exact p.map _ (p.zip hs hu)

theorem lookBack (before : α) (hs : p.lists s t) :
    p.lists ((before :: s).zip s) ((before :: t).zip t) := by
  rw [← Series.scan_eq_zip, ← Series.scan_eq_zip]
  exact p.scan _ _ hs

theorem lookBackBeside (before : α) (hs : p.lists s t) (hu : p.lists u v) :
    p.lists ((before :: s).zip (s.zip u)) ((before :: t).zip (t.zip v)) := by
  rw [← Series.scan_eq_zip_zip, ← Series.scan_eq_zip_zip]
  exact p.scan _ _ (p.zip hs hu)

theorem windows (period : Nat) {s t : List (Option α)} (hs : p.lists s t) :
    p.lists (Series.windows period s) (Series.windows period t) :=
  p.scan _ _ hs

theorem combine (f : Float → Float → Float) {a a' b b' : Series} (ha : p.lists a a')
    (hb : p.lists b b') : p.lists (Series.combine f a b) (Series.combine f a' b') :=
  p.zipWith _ ha hb

theorem fitTo {s t : Series} (hs : p.lists s t) (hu : p.lists u v) :
    p.lists (Series.fit u.length s) (Series.fit v.length t) :=
  p.fit (p.length hu) hs

end Pairing

end CandleScript
