import SRPanel.Lib.Pool
import SRPanel.Lib.Zoom
import Mathlib.Data.Multiset.AddSub
import Mathlib.Algebra.Order.Group.Multiset

/-!
# Transactions at READ COMMITTED

Every statement of a transaction is one atomic step. A read sees what is committed when the
statement starts, together with the changes of its own transaction. An update first locks its row:
it waits while another open transaction has changed the row, and then works on the version committed
last. The changes of a transaction reach the others at its commit, all at once; so does the release
of its locks, which a rollback does as well.

`Pinned` is what the locks are good for: between an update and the end of its transaction, the
committed version of the row does not change.
-/

namespace ReadCommitted

open Interleaving

variable {ℓ κ X D ε α β V : Type}

/-! ## Databases and transactions -/

/-- A database: what is committed, and the rows that open transactions have changed. -/
structure Shared (κ D : Type) where
  data : D
  locks : Multiset κ

/-- What an open transaction has changed, which nobody else sees. -/
structure Draft (κ D : Type) where
  keys : Multiset κ
  apply : D → D

/-- Nothing has been changed. -/
def Draft.empty : Draft κ D := ⟨0, id⟩

inductive Stmt (κ X : Type)
  | plain
  /-- an update of row `k`; `x` says what statements about runs need to know of it -/
  | lock (k : κ) (x : X)

/-- A procedure on a database. -/
abbrev Session (κ X D ε : Type) := Prog (Stmt κ X) (Shared κ D) ε

/-- A part of a transaction: it carries the changes made so far, and may give up with an error. -/
def Tx (κ X D ε α : Type) := Draft κ D → Session κ X D ε (Except ε α × Draft κ D)

namespace Tx

instance : Monad (Tx κ X D ε) where
  pure a := fun b => pure (.ok a, b)
  bind x f := fun b => x b >>= fun
    | (.ok a, b') => f a b'
    | (.error e, b') => pure (.error e, b')

/-- Give up the transaction. -/
def fail (e : ε) : Tx κ X D ε α := fun b => pure (.error e, b)

/-- A read. -/
def select (f : D → α) : Tx κ X D ε α := fun b =>
  .query .plain fun s => (.ok (f (b.apply s.data)), b)

/-- An update of row `k`: `F` gives its result and its change. -/
def update (k : κ) (x : X) (F : D → Except ε (α × (D → D))) : Tx κ X D ε α := fun b =>
  .step (.lock k x) fun s =>
    match F (b.apply s.data) with
    | .error e => (.ok (.error e, b), s)
    | .ok (a, w) => (.ok (.ok a, ⟨k ::ₘ b.keys, fun d => w (b.apply d)⟩),
        { s with locks := k ::ₘ s.locks })

/-- The insertion of a row that no other transaction can touch before the commit. -/
def insert (w : D → D) : Tx κ X D ε Unit := fun b =>
  .query .plain fun _ => (.ok (), ⟨b.keys, fun d => w (b.apply d)⟩)

end Tx

/-- Make the changes of a transaction visible and release its locks. -/
def commit [DecidableEq κ] (b : Draft κ D) : Session κ X D ε Unit :=
  .modify .plain fun s => ⟨b.apply s.data, s.locks - b.keys⟩

/-- Release the locks of a transaction. -/
def rollback [DecidableEq κ] (b : Draft κ D) : Session κ X D ε Unit :=
  .modify .plain fun s => { s with locks := s.locks - b.keys }

/-- A transaction: it ends with a commit, or with a rollback and its error. -/
def transaction [DecidableEq κ] (body : Tx κ X D ε α) : Session κ X D ε α := do
  let (r, b) ← body .empty
  match r with
  | .ok a => do
      commit b
      pure a
  | .error e => do
      rollback b
      throw e

/-- No other open transaction has changed the row that the statement updates. -/
def Stmt.Ready : Stmt κ X → Shared κ D → Prop
  | .plain, _ => True
  | .lock k _, s => k ∉ s.locks

instance [DecidableEq κ] : ∀ (l : Stmt κ X) (s : Shared κ D), Decidable (l.Ready s)
  | .plain, _ => isTrue trivial
  | .lock _ _, _ => inferInstanceAs (Decidable (_ ∉ _))

/-- The committed content. -/
def committed : Focus D (Shared κ D) where
  get := Shared.data
  put d s := { s with data := d }
  get_put _ _ := rfl
  put_get _ := rfl
  put_put _ _ _ := rfl

/-- A procedure outside transactions: each of its steps is a transaction of one statement. -/
def auto (p : Prog ℓ D ε α) : Session κ X D ε α := p.zoom committed fun _ => .plain

/-! ## Running alone -/

theorem run_auto (p : Prog ℓ D ε α) (s : Shared κ D) :
    (auto p : Session κ X D ε α).run s = ((p.run s.data).1, { s with data := (p.run s.data).2 }) :=
  Prog.run_zoom _ _ p s

section Run

variable (b : Draft κ D) (s : Shared κ D)

@[simp] theorem Tx.run_pure (a : α) :
    ((pure a : Tx κ X D ε α) b).run s = (.ok (.ok a, b), s) := rfl

@[simp] theorem Tx.run_fail (e : ε) :
    ((Tx.fail e : Tx κ X D ε α) b).run s = (.ok (.error e, b), s) := rfl

@[simp] theorem Tx.run_select (f : D → α) :
    ((Tx.select f : Tx κ X D ε α) b).run s = (.ok (.ok (f (b.apply s.data)), b), s) := rfl

@[simp] theorem Tx.run_insert (w : D → D) :
    ((Tx.insert w : Tx κ X D ε Unit) b).run s =
      (.ok (.ok (), ⟨b.keys, fun d => w (b.apply d)⟩), s) := rfl

theorem Tx.run_update (k : κ) (x : X) (F : D → Except ε (α × (D → D))) :
    ((Tx.update k x F : Tx κ X D ε α) b).run s =
      match F (b.apply s.data) with
      | .error e => (.ok (.error e, b), s)
      | .ok (a, w) => (.ok (.ok a, ⟨k ::ₘ b.keys, fun d => w (b.apply d)⟩),
          { s with locks := k ::ₘ s.locks }) :=
  Prog.run_step _ _ _

@[simp] theorem Tx.run_bind (x : Tx κ X D ε β) (f : β → Tx κ X D ε α) :
    ((x >>= f) b).run s = match (x b).run s with
      | (.ok (.ok a, b'), s') => (f a b').run s'
      | (.ok (.error e, b'), s') => (.ok (.error e, b'), s')
      | (.error e, s') => (.error e, s') := by
  show (x b >>= _).run s = _
  rw [Prog.run_bind]
  rcases (x b).run s with ⟨_ | ⟨_ | _, _⟩, _⟩ <;> rfl

/-- A transaction alone on the database commits its changes, or leaves nothing behind. -/
theorem run_transaction [DecidableEq κ] (body : Tx κ X D ε α) (d : D) (locks : Multiset κ) :
    (transaction body).run ⟨d, locks⟩ = match (body .empty).run ⟨d, locks⟩ with
      | (.ok (.ok a, b), s) => (.ok a, ⟨b.apply s.data, s.locks - b.keys⟩)
      | (.ok (.error e, b), s) => (.error e, ⟨s.data, s.locks - b.keys⟩)
      | (.error e, s) => (.error e, s) := by
  rw [transaction, Prog.run_bind]
  rcases (body .empty).run ⟨d, locks⟩ with ⟨_ | ⟨_ | _, _⟩, _⟩ <;> rfl

end Run

/-! ## Locked rows -/

/-- The open transactions hold the locks `g`, and under each the committed row still looks as it did
when it was locked. -/
structure Pinned (view : D → κ → V) (s : Shared κ D) (g : Multiset (κ × V)) : Prop where
  locks : s.locks = g.map Prod.fst
  nodup : s.locks.Nodup
  fixed : ∀ e ∈ g, view s.data e.1 = e.2

variable {view : D → κ → V} {s : Shared κ D} {f g : Multiset (κ × V)}

theorem Pinned.zero {d : D} : Pinned view ⟨d, 0⟩ 0 :=
  ⟨rfl, Multiset.nodup_zero, fun _ h => absurd h (Multiset.notMem_zero _)⟩

/-- A lock fixes the row as it is committed now. -/
theorem Pinned.lock (h : Pinned view s g) {k : κ} (hk : k ∉ s.locks) :
    Pinned view { s with locks := k ::ₘ s.locks } ((k, view s.data k) ::ₘ g) where
  locks := by rw [Multiset.map_cons, h.locks]
  nodup := Multiset.nodup_cons.mpr ⟨hk, h.nodup⟩
  fixed e he := by
    rcases Multiset.mem_cons.mp he with rfl | he
    · rfl
    · exact h.fixed e he

/-- Rows that others have locked may not be touched. -/
theorem Pinned.change (h : Pinned view s g) {d : D}
    (hd : ∀ k ∈ s.locks, view d k = view s.data k) : Pinned view { s with data := d } g where
  locks := h.locks
  nodup := h.nodup
  fixed e he := by
    rw [← h.fixed e he]
    refine hd e.1 ?_
    rw [h.locks]
    exact Multiset.mem_map_of_mem _ he

/-- The end of a transaction that held the locks `g` and changed no rows but its own. -/
theorem Pinned.release [DecidableEq κ] (h : Pinned view s (g + f)) {d : D}
    (hd : ∀ k, k ∉ g.map Prod.fst → view d k = view s.data k) :
    Pinned view ⟨d, s.locks - g.map Prod.fst⟩ f := by
  have hlocks : s.locks = g.map Prod.fst + f.map Prod.fst := by rw [h.locks, Multiset.map_add]
  have hrest : s.locks - g.map Prod.fst = f.map Prod.fst := by
    rw [hlocks, add_tsub_cancel_left]
  refine ⟨hrest, ?_, fun e he => ?_⟩
  · rw [hrest]
    exact Multiset.nodup_of_le (Multiset.le_add_left _ _) (hlocks ▸ h.nodup)
  · rw [← h.fixed e (Multiset.mem_add.mpr (.inr he))]
    refine hd e.1 fun hmem => ?_
    have hdisj := (Multiset.nodup_add.mp (hlocks ▸ h.nodup)).2.2
    exact Multiset.disjoint_left.mp hdisj hmem (Multiset.mem_map_of_mem _ he)

/-! ## The proof rule for transactions -/

section Rules

variable {ok : Stmt κ X → Shared κ D → Prop} {J : D → Prop} {G : Shared κ D → Shared κ D → Prop}

/-- The invariant of the runs: `J` of what is committed, with the locks in order. -/
def Inv (view : D → κ → V) (J : D → Prop) (s : Shared κ D) (g : Multiset (κ × V)) : Prop :=
  J s.data ∧ Pinned view s g

/-- The changes `b` of a transaction that holds the locks `g` may be committed. -/
structure Draft.Sound (view : D → κ → V) (J : D → Prop) (b : Draft κ D) (g : Multiset (κ × V)) :
    Prop where
  keys : b.keys = g.map Prod.fst
  keeps : ∀ d, J d → (∀ e ∈ g, view d e.1 = e.2) → J (b.apply d)
  frame : ∀ d k, k ∉ b.keys → view (b.apply d) k = view d k

/-- A part of a transaction, from the changes `b` and the locks `g`: no step of it disturbs the
others, `Q` describes its result and `E` its error, with the changes and locks at its end. -/
def Tx.Safe (ok : Stmt κ X → Shared κ D → Prop) (view : D → κ → V) (J : D → Prop)
    (Q : α → Draft κ D → Multiset (κ × V) → Prop) (E : Draft κ D → Multiset (κ × V) → Prop)
    (x : Tx κ X D ε α) (b : Draft κ D) (g : Multiset (κ × V)) : Prop :=
  Interleaving.Safe ok (Inv view J) (fun _ _ => True)
    (fun r g' => match r.1 with
      | .ok a => Q a r.2 g'
      | .error _ => E r.2 g')
    (fun _ _ => False) (x b) g

variable {Q : α → Draft κ D → Multiset (κ × V) → Prop} {E : Draft κ D → Multiset (κ × V) → Prop}
variable {b : Draft κ D}

theorem Tx.safe_pure {a : α} (h : Q a b g) :
    Tx.Safe ok view J Q E (pure a : Tx κ X D ε α) b g := Interleaving.safe_pure h

theorem Tx.safe_fail {e : ε} (h : E b g) :
    Tx.Safe ok view J Q E (Tx.fail e : Tx κ X D ε α) b g := Interleaving.safe_pure h

theorem Tx.safe_bind {R : β → Draft κ D → Multiset (κ × V) → Prop} {x : Tx κ X D ε β}
    {f : β → Tx κ X D ε α} (hx : Tx.Safe ok view J R E x b g)
    (hf : ∀ a b' g', R a b' g' → Tx.Safe ok view J Q E (f a) b' g') :
    Tx.Safe ok view J Q E (x >>= f) b g := by
  refine Interleaving.safe_bind (Interleaving.safe_mono hx (fun _ _ h => h) fun _ _ h => h.elim) ?_
  rintro ⟨_ | a, b'⟩ g' h
  · exact Interleaving.safe_pure h
  · exact hf a b' g' h

theorem Tx.safe_select {f : D → α} (h : ∀ d, Q (f (b.apply d)) b g) :
    Tx.Safe ok view J Q E (Tx.select f : Tx κ X D ε α) b g :=
  Interleaving.safe_query (fun _ => trivial) fun _ _ _ _ => h _

theorem Tx.safe_insert {w : D → D} {Q : Unit → Draft κ D → Multiset (κ × V) → Prop}
    (h : Q () ⟨b.keys, fun d => w (b.apply d)⟩ g) :
    Tx.Safe ok view J Q E (Tx.insert w : Tx κ X D ε Unit) b g :=
  Interleaving.safe_query (fun _ => trivial) fun _ _ _ _ => h

/-- An update gains the lock of its row. -/
theorem Tx.safe_update {k : κ} {x : X} {F : D → Except ε (α × (D → D))}
    (hready : ∀ s, ok (.lock k x) s → k ∉ s.locks)
    (hQ : ∀ s a w, J s.data → ok (.lock k x) s → F (b.apply s.data) = .ok (a, w) →
      Q a ⟨k ::ₘ b.keys, fun d => w (b.apply d)⟩ ((k, view s.data k) ::ₘ g)) (hE : E b g) :
    Tx.Safe ok view J Q E (Tx.update k x F : Tx κ X D ε α) b g := by
  refine Interleaving.safe_step fun s f ⟨hJ, hP⟩ hok => ⟨trivial, ?_⟩
  rcases hF : F (b.apply s.data) with e | ⟨a, w⟩
  · refine ⟨g, ⟨hJ, hP⟩, ?_, fun _ h => nomatch h⟩
    rintro _ ⟨⟩
    exact hE
  · refine ⟨(k, view s.data k) ::ₘ g, ?_, ?_, fun _ h => nomatch h⟩
    · rw [Multiset.cons_add]
      exact ⟨hJ, hP.lock (hready s hok)⟩
    · rintro _ ⟨⟩
      exact hQ s a w hJ hok hF

/-- Single statements outside transactions, none of which touches a locked row. -/
theorem safe_auto {R : D → D → Prop} {p : Prog ℓ D ε α} (hp : p.Keeps R)
    (hR : ∀ d d', R d d' → J d → J d' ∧ ∀ k, view d' k = view d k) :
    Interleaving.Safe ok (Inv view J) (fun _ _ => True) (fun _ g' => g' = g) (fun _ g' => g' = g)
      (auto p : Session κ X D ε α) g := by
  refine safe_of_keeps (hp.zoom committed fun _ => (.plain : Stmt κ X)) ?_
  rintro s s' f ⟨hd, hframe⟩ ⟨hJ, hP⟩
  obtain ⟨hJ', hview⟩ := hR _ _ hd hJ
  have hs' : { s with data := s'.data } = s' := hframe
  rw [← hs']
  exact ⟨⟨hJ', hP.change fun k _ => hview k⟩, trivial⟩

theorem auto_query {l : ℓ} (f : D → α) :
    (auto (.query l f : Prog ℓ D ε α) : Session κ X D ε α) = .query .plain fun s => f s.data := rfl

/-- A transaction whose changes are sound when it commits needs no locks before and leaves none. -/
theorem safe_transaction [DecidableEq κ] {body : Tx κ X D ε α}
    (h : Tx.Safe ok view J (fun _ b g => b.Sound view J g)
      (fun b g => b.keys = g.map Prod.fst) body .empty 0) :
    Interleaving.Safe ok (Inv view J) (fun _ _ => True) (fun _ g => g = 0) (fun _ g => g = 0)
      (transaction body) 0 := by
  refine safe_bind (safe_mono h (fun _ _ h => h) fun _ _ h => h.elim) ?_
  rintro ⟨_ | a, b⟩ g hg
  · refine safe_bind (R := fun _ g => g = 0) ?_ fun _ g h => safe_throw h
    refine safe_step fun s f ⟨hJ, hP⟩ _ => ⟨trivial, 0, ?_, fun _ _ => rfl, fun _ _ => rfl⟩
    rw [zero_add]
    refine ⟨hJ, ?_⟩
    show Pinned view ⟨s.data, s.locks - b.keys⟩ f
    rw [show b.keys = g.map Prod.fst from hg]
    exact hP.release fun _ _ => rfl
  · have hb : b.Sound view J g := hg
    refine safe_bind (R := fun _ g => g = 0) ?_ fun _ g h => safe_pure h
    refine safe_step fun s f ⟨hJ, hP⟩ _ => ⟨trivial, 0, ?_, fun _ _ => rfl, fun _ _ => rfl⟩
    rw [zero_add]
    refine ⟨hb.keeps s.data hJ fun e he => hP.fixed e (Multiset.mem_add.mpr (.inl he)), ?_⟩
    show Pinned view ⟨b.apply s.data, s.locks - b.keys⟩ f
    rw [hb.keys]
    exact hP.release fun k hk => hb.frame s.data k (hb.keys ▸ hk)

end Rules

end ReadCommitted
