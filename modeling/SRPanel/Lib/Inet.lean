import Mathlib.Data.Nat.Notation
import Mathlib.Tactic.Ring

/-!
# Texts of internet addresses

`v4` reads the texts that stand for an IPv4 address: one to four parts, each in decimal, octal or
hexadecimal, the last one filling the remaining bytes. `v6` reads those of an IPv6 address: up to
eight groups, one run of zeros written as `::`, the last two groups possibly as four decimal
numbers, and a zone behind a percent sign. Letters are in lower case.
-/

namespace Inet

/-! ## Numbers -/

/-- The value of a digit. -/
def digit (c : Char) : Option ℕ :=
  if c.isDigit then some (c.toNat - 48)
  else if 'a' ≤ c ∧ c ≤ 'f' then some (c.toNat - 87)
  else none

/-- One more digit of a number. -/
def push (b n : ℕ) (c : Char) : Option ℕ :=
  (digit c).bind fun d => if d < b then some (b * n + d) else none

/-- The number with these digits in a base. -/
def number (b : ℕ) (cs : List Char) : Option ℕ := cs.foldlM (push b) 0

section

variable {b n d : ℕ} {c c' : Char} {cs : List Char}

/-- A digit is written in one way. -/
theorem digit_inj (h : digit c = some d) (h' : digit c' = some d) : c = c' := by
  have hval : ∀ {c : Char}, digit c = some d →
      (c.toNat = d + 48 ∧ d < 10) ∨ (c.toNat = d + 87 ∧ 10 ≤ d) := by
    intro c h
    unfold digit at h
    split at h
    · next hdigit =>
      simp only [Char.isDigit, Bool.and_eq_true, decide_eq_true_eq, ge_iff_le,
        UInt32.le_iff_toNat_le] at hdigit
      obtain rfl := Option.some.inj h
      have hge : 48 ≤ c.toNat := hdigit.1
      have hle : c.toNat ≤ 57 := hdigit.2
      omega
    · split at h
      · next hletter =>
        obtain rfl := Option.some.inj h
        have hge : 97 ≤ c.toNat := hletter.1
        omega
      · cases h
  have hnat : c.toNat = c'.toNat := by
    rcases hval h with h | h <;> rcases hval h' with h' | h' <;> omega
  exact Char.toNat_inj.mp hnat

theorem foldlM_push_cons {m : ℕ} (h : (c :: cs).foldlM (push b) m = some n) :
    ∃ d, digit c = some d ∧ d < b ∧ cs.foldlM (push b) (b * m + d) = some n := by
  rw [List.foldlM_cons] at h
  obtain ⟨x, hx, hrest⟩ := Option.bind_eq_some_iff.mp h
  obtain ⟨d, hd, hstep⟩ := Option.bind_eq_some_iff.mp hx
  split at hstep
  · next hlt =>
    obtain rfl := Option.some.inj hstep
    exact ⟨d, hd, hlt, hrest⟩
  · cases hstep

theorem foldlM_push {m : ℕ} (h : cs.foldlM (push b) m = some n) :
    n < (m + 1) * b ^ cs.length ∧ ∀ c ∈ cs, (digit c).isSome := by
  induction cs generalizing m with
  | nil =>
    obtain rfl : m = n := Option.some.inj h
    exact ⟨by simp, fun c hc => by cases hc⟩
  | cons c cs ih =>
    obtain ⟨d, hd, hlt, hrest⟩ := foldlM_push_cons h
    obtain ⟨hbound, hall⟩ := ih hrest
    refine ⟨?_, List.forall_mem_cons.mpr ⟨by rw [hd]; rfl, hall⟩⟩
    calc n < (b * m + d + 1) * b ^ cs.length := hbound
      _ ≤ (b * m + b) * b ^ cs.length := Nat.mul_le_mul_right _ (by omega)
      _ = (m + 1) * b ^ (c :: cs).length := by rw [List.length_cons, pow_succ]; ring

/-- A number is below the power of its base that its length is. -/
theorem number_lt (h : number b cs = some n) : n < b ^ cs.length := by
  simpa using (foldlM_push h).1

theorem digit_of_number (h : number b cs = some n) (hc : c ∈ cs) : (digit c).isSome :=
  (foldlM_push h).2 c hc

/-- The value of a number of four digits. -/
theorem number_four {c₀ c₁ c₂ c₃ : Char} (h : number b [c₀, c₁, c₂, c₃] = some n) :
    ∃ d₀ d₁ d₂ d₃, digit c₀ = some d₀ ∧ digit c₁ = some d₁ ∧ digit c₂ = some d₂ ∧ d₀ < b ∧ d₁ < b ∧
      d₂ < b ∧ d₃ < b ∧ n = b * (b * (b * d₀ + d₁) + d₂) + d₃ := by
  obtain ⟨d₀, h₀, hlt₀, h⟩ := foldlM_push_cons h
  obtain ⟨d₁, h₁, hlt₁, h⟩ := foldlM_push_cons h
  obtain ⟨d₂, h₂, hlt₂, h⟩ := foldlM_push_cons h
  obtain ⟨d₃, -, hlt₃, h⟩ := foldlM_push_cons h
  rw [mul_zero, zero_add] at h
  exact ⟨d₀, d₁, d₂, d₃, h₀, h₁, h₂, hlt₀, hlt₁, hlt₂, hlt₃, (Option.some.inj h).symm⟩

end

/-! ## IPv4 -/

/-- A part of an IPv4 text; the mark of a hexadecimal number alone is read as zero. -/
def part : List Char → Option ℕ
  | [] => none
  | '0' :: 'x' :: ds => number 16 ds
  | '0' :: ds => number 8 ds
  | ds => number 10 ds

/-- The address with these parts. -/
def v4OfParts : List ℕ → Option ℕ
  | [a] => if a < 2 ^ 32 then some a else none
  | [a, b] => if a < 2 ^ 8 ∧ b < 2 ^ 24 then some (a * 2 ^ 24 + b) else none
  | [a, b, c] => if a < 2 ^ 8 ∧ b < 2 ^ 8 ∧
  c < 2 ^ 16 then some (a * 2 ^ 24 + b * 2 ^ 16 + c) else none
  | [a, b, c, d] =>
      if a < 2 ^ 8 ∧ b < 2 ^ 8 ∧ c < 2 ^ 8 ∧
        d < 2 ^ 8 then some (a * 2 ^ 24 + b * 2 ^ 16 + c * 2 ^ 8 + d) else none
  | _ => none

/-- The IPv4 address that a text stands for. -/
def v4 (cs : List Char) : Option ℕ := ((cs.splitOn '.').mapM part).bind v4OfParts

/-- A number from 0 to 999 without leading zeros. -/
def isPlain (cs : List Char) : Bool :=
  cs ≠ [] && cs.length ≤ 3 && cs.all Char.isDigit && (cs = ['0'] || cs.head? ≠ some '0')

/-- Four decimal numbers. -/
def isDotted (cs : List Char) : Bool := (cs.splitOn '.').length = 4 && (cs.splitOn '.').all isPlain

/-- Private, loopback, link-local or unspecified. -/
def InternalV4 (n : ℕ) : Prop :=
  n / 2 ^ 24 = 10 ∨ n / 2 ^ 20 = 172 * 2 ^ 4 + 1 ∨ n / 2 ^ 16 = 192 * 2 ^ 8 + 168 ∨
    n / 2 ^ 24 = 127 ∨ n / 2 ^ 16 = 169 * 2 ^ 8 + 254 ∨ n = 0

instance (n : ℕ) : Decidable (InternalV4 n) := inferInstanceAs (Decidable (_ ∨ _))

section

variable {n : ℕ} {c sep : Char} {cs : List Char}

theorem mem_intercalate {parts : List (List Char)} (h : c ∈ [sep].intercalate parts) :
    c = sep ∨ ∃ p ∈ parts, c ∈ p := by
  induction parts with
  | nil => cases h
  | cons p parts ih =>
    cases parts with
    | nil => exact .inr ⟨p, List.mem_cons_self, by simpa using h⟩
    | cons q parts =>
      rw [List.intercalate_cons_cons, List.append_assoc, List.mem_append, List.singleton_append,
        List.mem_cons] at h
      obtain h | h | h := h
      · exact .inr ⟨p, List.mem_cons_self, h⟩
      · exact .inl h
      · obtain h | ⟨r, hr, hc⟩ := ih h
        · exact .inl h
        · exact .inr ⟨r, List.mem_cons_of_mem _ hr, hc⟩

/-- A character of a text is the separator or in a part. -/
theorem mem_splitOn (sep : Char) (h : c ∈ cs) : c = sep ∨ ∃ p ∈ cs.splitOn sep, c ∈ p :=
  mem_intercalate (by rwa [List.intercalate_splitOn])

theorem mapM_some {α β : Type} {f : α → Option β} {xs : List α} {ys : List β}
    (h : xs.mapM f = some ys) : ys.length = xs.length ∧ ∀ x ∈ xs, (f x).isSome := by
  induction xs generalizing ys with
  | nil =>
    obtain rfl : [] = ys := Option.some.inj h
    exact ⟨rfl, fun x hx => by cases hx⟩
  | cons x xs ih =>
    rw [List.mapM_cons] at h
    obtain ⟨y, hy, hrest⟩ := Option.bind_eq_some_iff.mp h
    obtain ⟨zs, hzs, heq⟩ := Option.bind_eq_some_iff.mp hrest
    obtain rfl := Option.some.inj heq
    obtain ⟨hlen, hall⟩ := ih hzs
    exact ⟨by rw [List.length_cons, List.length_cons, hlen],
      List.forall_mem_cons.mpr ⟨by rw [hy]; rfl, hall⟩⟩

/-- A part is not empty, and has digits and a mark only. -/
theorem part_chars (h : part cs = some n) : cs ≠ [] ∧ ∀ c ∈ cs, (digit c).isSome ∨ c = 'x' := by
  unfold part at h
  split at h
  · cases h
  · exact ⟨List.cons_ne_nil _ _,
      List.forall_mem_cons.mpr ⟨.inl (by decide),
        List.forall_mem_cons.mpr ⟨.inr rfl, fun c hc => .inl (digit_of_number h hc)⟩⟩⟩
  · exact ⟨List.cons_ne_nil _ _,
    List.forall_mem_cons.mpr ⟨.inl (by decide), fun c hc => .inl (digit_of_number h hc)⟩⟩
  · next hne _ _ => exact ⟨fun hnil => hne hnil, fun c hc => .inl (digit_of_number h hc)⟩

/-- The characters of an IPv4 text. -/
theorem v4_chars (h : v4 cs = some n) (hc : c ∈ cs) : (digit c).isSome ∨ c = 'x' ∨ c = '.' := by
  obtain ⟨ns, hns, -⟩ := Option.bind_eq_some_iff.mp h
  obtain rfl | ⟨p, hp, hc⟩ := mem_splitOn '.' hc
  · exact .inr (.inr rfl)
  · obtain ⟨m, hm⟩ := Option.isSome_iff_exists.mp ((mapM_some hns).2 p hp)
    exact ((part_chars hm).2 c hc).imp_right .inl

theorem v4_ne_nil (h : v4 cs = some n) : cs ≠ [] := by
  obtain ⟨ns, hns, -⟩ := Option.bind_eq_some_iff.mp h
  rintro rfl
  obtain ⟨m, hm⟩ := Option.isSome_iff_exists.mp ((mapM_some hns).2 [] (by simp))
  exact (part_chars hm).1 rfl

/-- A plain number is read in decimal. -/
theorem part_of_isPlain (h : isPlain cs) : part cs = number 10 cs := by
  simp only [isPlain, Bool.and_eq_true, decide_eq_true_eq, Bool.or_eq_true, List.all_eq_true] at h
  obtain ⟨⟨⟨hne, -⟩, hdigits⟩, hzero⟩ := h
  obtain rfl | hhead := hzero
  · rfl
  · unfold part
    split
    · exact absurd rfl hne
    · exact absurd rfl hhead
    · exact absurd rfl hhead
    · rfl

end

/-! ## IPv6 -/

/-- A group of an IPv6 text. -/
def group (cs : List Char) : Option ℕ := if cs ≠ [] ∧ cs.length ≤ 4 then number 16 cs else none

/-- The last two groups as four decimal numbers. -/
def quad (cs : List Char) : Option (List ℕ) :=
  if isDotted cs then (v4 cs).map fun n => [n / 2 ^ 16, n % 2 ^ 16] else none

/-- Groups, the last one possibly in decimal. -/
def groups : List (List Char) → Option (List ℕ)
  | [] => some []
  | [last] => ((group last).map fun g => [g]).or (quad last)
  | cs :: rest => (group cs).bind fun g => (groups rest).map (g :: ·)

/-- The texts on both sides of the first `::`. -/
def splitZeros : List Char → Option (List Char × List Char)
  | ':' :: ':' :: rest => some ([], rest)
  | c :: rest => (splitZeros rest).map fun x => (c :: x.1, x.2)
  | [] => none

/-- The groups on one side of a `::`. -/
def side (read : List (List Char) → Option (List ℕ)) (cs : List Char) : Option (List ℕ) :=
  if cs = [] then some [] else read (cs.splitOn ':')

/-- The groups of the IPv6 address that a text without a zone stands for. -/
def zoneless (cs : List Char) : Option (List ℕ) :=
  match splitZeros cs with
  | none => (groups (cs.splitOn ':')).filter fun gs => gs.length = 8
  | some (left, right) =>
      (side (List.mapM group) left).bind fun gs => (side groups right).bind fun hs =>
        if gs.length + hs.length ≤
          7 then some (gs ++ List.replicate (8 - gs.length - hs.length) 0 ++ hs) else none

/-- The groups of the IPv6 address that a text stands for; a zone is not empty. -/
def v6 (cs : List Char) : Option (List ℕ) :=
  if cs.dropWhile (· ≠ '%') = ['%'] then none else zoneless (cs.takeWhile (· ≠ '%'))

/-- Unique local or link-local. -/
def LocalV6 (gs : List ℕ) : Prop :=
  ∃ g ∈ gs.head?, g / 2 ^ 9 = 0xfc00 / 2 ^ 9 ∨ g / 2 ^ 6 = 0xfe80 / 2 ^ 6

/-- Unspecified or loopback, or an IPv4 address that is internal. -/
def EmbeddedV6 (gs : List ℕ) : Prop :=
  gs = [0, 0, 0, 0, 0, 0, 0, 0] ∨ gs = [0, 0, 0, 0, 0, 0, 0, 1] ∨
    ∃ g h, gs = [0, 0, 0, 0, 0, 0xffff, g, h] ∧ InternalV4 (g * 2 ^ 16 + h)

section

variable {g : ℕ} {c sep : Char} {cs left right : List Char} {gs : List ℕ}

theorem length_splitOn (sep : Char) (cs : List Char) :
    (cs.splitOn sep).length = cs.count sep + 1 := by
  induction cs with
  | nil => simp
  | cons c cs ih =>
    rw [List.splitOn_cons_eq_if_modifyHead, List.count_cons]
    split
    · rw [List.length_cons, ih]
    · rw [List.length_modifyHead, ih, add_zero]

theorem splitZeros_some (h : splitZeros cs = some (left, right)) :
    cs = left ++ ':' :: ':' :: right := by
  induction cs using splitZeros.induct generalizing left with
  | case1 rest =>
    obtain ⟨rfl, rfl⟩ := Prod.mk.inj (Option.some.inj h)
    rfl
  | case2 c rest hnot ih =>
    rw [splitZeros] at h
    · obtain ⟨⟨l, r⟩, hrest, heq⟩ := Option.map_eq_some_iff.mp h
      obtain ⟨rfl, rfl⟩ := Prod.mk.inj heq
      rw [ih hrest]
      rfl
    · exact hnot
  | case3 => cases h

/-- A text between colons: not empty, in digits and dots. -/
structure GroupText (p : List Char) : Prop where
  ne_nil : p ≠ []
  chars : ∀ c ∈ p, (digit c).isSome ∨ c = 'x' ∨ c = '.'

theorem groupText_of_group (h : group cs = some g) : GroupText cs := by
  unfold group at h
  split at h
  · next hlen => exact ⟨hlen.1, fun c hc => .inl (digit_of_number h hc)⟩
  · cases h

theorem groupText_of_quad (h : quad cs = some gs) : GroupText cs ∧ gs.length = 2 := by
  unfold quad at h
  split at h
  · obtain ⟨n, hn, rfl⟩ := Option.map_eq_some_iff.mp h
    exact ⟨⟨v4_ne_nil hn, fun c hc => v4_chars hn hc⟩, rfl⟩
  · cases h

theorem groups_texts {ps : List (List Char)} (h : groups ps = some gs) :
    (∀ p ∈ ps, GroupText p) ∧ gs.length ≤ ps.length + 1 := by
  induction ps using groups.induct generalizing gs with
  | case1 =>
    obtain rfl : [] = gs := Option.some.inj h
    exact ⟨by simp, by simp⟩
  | case2 last =>
    rw [groups] at h
    simp only [List.mem_singleton, forall_eq, List.length_singleton]
    obtain h | ⟨-, h⟩ := Option.or_eq_some_iff.mp h
    · obtain ⟨g, hg, rfl⟩ := Option.map_eq_some_iff.mp h
      exact ⟨groupText_of_group hg, by simp⟩
    · obtain ⟨htext, hlen⟩ := groupText_of_quad h
      exact ⟨htext, hlen.le⟩
  | case3 cs rest hne ih =>
    rw [groups] at h
    · obtain ⟨g, hg, h⟩ := Option.bind_eq_some_iff.mp h
      obtain ⟨hs, hhs, rfl⟩ := Option.map_eq_some_iff.mp h
      obtain ⟨hall, hlen⟩ := ih hhs
      exact ⟨List.forall_mem_cons.mpr ⟨groupText_of_group hg, hall⟩, by simpa using hlen⟩
    · exact hne

theorem mapM_group_texts {ps : List (List Char)} (h : ps.mapM group = some gs) :
    ∀ p ∈ ps, GroupText p := by
  intro p hp
  obtain ⟨g, hg⟩ := Option.isSome_iff_exists.mp ((mapM_some h).2 p hp)
  exact groupText_of_group hg

/-- The texts between the colons of an IPv6 text, of which there are two at least. -/
theorem zoneless_texts (h : zoneless cs = some gs) :
    (∀ p ∈ cs.splitOn ':', p = [] ∨ GroupText p) ∧ 2 ≤ cs.count ':' := by
  unfold zoneless at h
  split at h
  · obtain ⟨hgroups, hlen⟩ := Option.filter_eq_some_iff.mp h
    obtain ⟨htexts, hle⟩ := groups_texts hgroups
    rw [length_splitOn] at hle
    have hlen : gs.length = 8 := of_decide_eq_true hlen
    exact ⟨fun p hp => .inr (htexts p hp), by omega⟩
  · next left right hzeros =>
    obtain ⟨ls, hleft, h⟩ := Option.bind_eq_some_iff.mp h
    obtain ⟨rs, hright, -⟩ := Option.bind_eq_some_iff.mp h
    have hside : ∀ {read : List (List Char) → Option (List ℕ)} {text : List Char} {hs : List ℕ},
        (∀ {ps hs}, read ps = some hs → ∀ p ∈ ps, GroupText p) → side read text = some hs →
        ∀ p ∈ text.splitOn ':', p = [] ∨ GroupText p := by
      intro read text hs hread hside p hp
      unfold side at hside
      split at hside
      · next hnil =>
        rw [hnil, List.splitOn_nil] at hp
        exact .inl (List.mem_singleton.mp hp)
      · exact .inr (hread hside p hp)
    rw [splitZeros_some hzeros, List.splitOn_append_cons_self]
    refine ⟨fun p hp => ?_, by
      rw [List.count_append, List.count_cons_self, List.count_cons_self]; omega⟩
    obtain hp | hp := List.mem_append.mp hp
    · exact hside mapM_group_texts hleft p hp
    · have hcons : (':' :: right).splitOn ':' = [] :: right.splitOn ':' := by simp [List.splitOn_cons_eq_if_modifyHead]
      rw [hcons] at hp
      obtain rfl | hp := List.mem_cons.mp hp
      · exact .inl rfl
      · exact hside (fun h => (groups_texts h).1) hright p hp

/-- The characters of an IPv6 text. -/
theorem zoneless_chars (h : zoneless cs = some gs) (hc : c ∈ cs) :
    (digit c).isSome ∨ c = 'x' ∨ c = '.' ∨ c = ':' := by
  obtain rfl | ⟨p, hp, hc⟩ := mem_splitOn ':' hc
  · exact .inr (.inr (.inr rfl))
  · obtain rfl | htext := (zoneless_texts h).1 p hp
    · cases hc
    · exact (htext.chars c hc).imp_right (Or.imp_right .inl)

/-- A first group that is not small is written with four digits, at the start of the text. -/
theorem zoneless_head (h : zoneless cs = some (g :: gs)) (hg : 2 ^ 12 ≤ g) :
    ∃ c₀ c₁ c₂ c₃ rest, cs = c₀ :: c₁ :: c₂ :: c₃ :: rest ∧ number 16 [c₀, c₁, c₂, c₃] =
    some g := by
  -- the text of the group
  have hsplit : ∀ text : List Char, ∃ p ps rest, text.splitOn ':' = p :: ps ∧ text = p ++ rest := by
    intro text
    obtain ⟨p, ps, hparts⟩ := List.exists_cons_of_ne_nil (List.splitOn_ne_nil ':' text)
    have htext : [':'].intercalate (text.splitOn ':') = text := List.intercalate_splitOn ':'
    rw [hparts] at htext
    cases ps with
    | nil => exact ⟨p, [], [], hparts, by simpa using htext.symm⟩
    | cons q ps =>
      rw [List.intercalate_cons_cons, List.append_assoc] at htext
      exact ⟨p, q :: ps, _, hparts, htext.symm⟩
  have hfirst : ∃ p rest, cs = p ++ rest ∧ group p = some g := by
    unfold zoneless at h
    split at h
    · obtain ⟨hgroups, hlen⟩ := Option.filter_eq_some_iff.mp h
      obtain ⟨p, ps, rest, hparts, htext⟩ := hsplit cs
      rw [hparts] at hgroups
      refine ⟨p, rest, htext, ?_⟩
      cases ps with
      | nil =>
        have hle := (groups_texts hgroups).2
        have hlen : (g :: gs).length = 8 := of_decide_eq_true hlen
        rw [hlen] at hle
        simp at hle
      | cons q ps =>
        obtain ⟨g', hg', hrest⟩ := Option.bind_eq_some_iff.mp hgroups
        obtain ⟨hs, -, heq⟩ := Option.map_eq_some_iff.mp hrest
        rw [hg', (List.cons.inj heq).1]
    · next left right hzeros =>
      obtain ⟨ls, hleft, h⟩ := Option.bind_eq_some_iff.mp h
      obtain ⟨rs, hright, h⟩ := Option.bind_eq_some_iff.mp h
      split at h
      · next hle =>
        have heq := Option.some.inj h
        unfold side at hleft
        split at hleft
        -- the text starts with zeros
        · obtain rfl := Option.some.inj hleft
          have hzero : List.replicate (8 - ([] : List ℕ).length - rs.length) 0 =
              0 :: List.replicate (7 - rs.length) 0 := by
            rw [← List.replicate_succ]
            congr 1
            simp only [List.length_nil] at hle ⊢
            omega
          rw [hzero] at heq
          obtain rfl : 0 = g := (List.cons.inj heq).1
          omega
        · obtain ⟨p, ps, rest, hparts, htext⟩ := hsplit left
          rw [hparts, List.mapM_cons] at hleft
          obtain ⟨g', hg', hrest⟩ := Option.bind_eq_some_iff.mp hleft
          obtain ⟨hs, -, hcons⟩ := Option.bind_eq_some_iff.mp hrest
          obtain rfl := Option.some.inj hcons
          refine ⟨p, rest ++ ':' :: ':' :: right, ?_, ?_⟩
          · rw [← List.append_assoc, ← htext, splitZeros_some hzeros]
          · rw [hg', (List.cons.inj heq).1]
      · cases h
  obtain ⟨p, rest, rfl, hp⟩ := hfirst
  unfold group at hp
  split at hp
  · next hlen =>
    have hlt := number_lt hp
    have hfour : p.length = 4 := by
      by_contra hne
      have hle : 16 ^ p.length ≤ 16 ^ 3 := Nat.pow_le_pow_right (by norm_num) (by omega)
      omega
    obtain _ | ⟨c₀, _ | ⟨c₁, _ | ⟨c₂, _ | ⟨c₃, _ | ⟨c₄, p⟩⟩⟩⟩⟩ := p <;>
      simp only [List.length_cons, List.length_nil, reduceCtorEq, Nat.reduceAdd,
        Nat.reduceEqDiff] at hfour
    · exact ⟨c₀, c₁, c₂, c₃, rest, rfl, hp⟩
  · cases hp

/-- A local address shows in the first digits. -/
theorem zoneless_local (h : zoneless cs = some gs) (hlocal : LocalV6 gs) :
    ∃ rest, cs = 'f' :: 'c' :: rest ∨ cs = 'f' :: 'd' :: rest ∨
      ∃ c ∈ ['8', '9', 'a', 'b'], cs = 'f' :: 'e' :: c :: rest := by
  obtain ⟨g, hg, hrange⟩ := hlocal
  obtain ⟨gs', rfl⟩ := List.head?_eq_some_iff.mp hg
  obtain ⟨c₀, c₁, c₂, c₃, rest, rfl, hnumber⟩ := zoneless_head h (by omega)
  obtain ⟨d₀, d₁, d₂, d₃, h₀, h₁, h₂, hlt₀, hlt₁, hlt₂, hlt₃, rfl⟩ := number_four hnumber
  have hf : c₀ = 'f' := digit_inj h₀ (by rw [show d₀ = 15 by omega]; rfl)
  subst hf
  obtain hrange | hrange := hrange
  -- unique local
  · obtain hd | hd : d₁ = 12 ∨ d₁ = 13 := by omega
    · exact ⟨_, .inl (by rw [digit_inj h₁ (show digit 'c' = _ by rw [hd]; rfl)])⟩
    · exact ⟨_, .inr (.inl (by rw [digit_inj h₁ (show digit 'd' = _ by rw [hd]; rfl)]))⟩
  -- link-local
  · have he : c₁ = 'e' := digit_inj h₁ (by rw [show d₁ = 14 by omega]; rfl)
    subst he
    obtain hd | hd | hd | hd : d₂ = 8 ∨ d₂ = 9 ∨ d₂ = 10 ∨ d₂ = 11 := by omega
    · exact ⟨_, .inr (.inr ⟨'8', by simp, by
      rw [digit_inj h₂ (show digit '8' = _ by rw [hd]; rfl)]⟩)⟩
    · exact ⟨_, .inr (.inr ⟨'9', by simp, by
      rw [digit_inj h₂ (show digit '9' = _ by rw [hd]; rfl)]⟩)⟩
    · exact ⟨_, .inr (.inr ⟨'a', by simp, by
      rw [digit_inj h₂ (show digit 'a' = _ by rw [hd]; rfl)]⟩)⟩
    · exact ⟨_, .inr (.inr ⟨'b', by simp, by
      rw [digit_inj h₂ (show digit 'b' = _ by rw [hd]; rfl)]⟩)⟩

/-- An IPv6 text starts with its address. -/
theorem v6_zoneless (h : v6 cs = some gs) :
    ∃ text zone, cs = text ++ zone ∧ zoneless text = some gs := by
  unfold v6 at h
  split at h
  · cases h
  · exact ⟨_, _, (List.takeWhile_append_dropWhile (p := (· ≠ '%')) (l := cs)).symm, h⟩

/-- A local address shows in the first digits. -/
theorem v6_local (h : v6 cs = some gs) (hlocal : LocalV6 gs) :
    ∃ rest, cs = 'f' :: 'c' :: rest ∨ cs = 'f' :: 'd' :: rest ∨
      ∃ c ∈ ['8', '9', 'a', 'b'], cs = 'f' :: 'e' :: c :: rest := by
  obtain ⟨text, zone, rfl, htext⟩ := v6_zoneless h
  obtain ⟨rest, rfl | rfl | ⟨c, hc, rfl⟩⟩ := zoneless_local htext hlocal
  · exact ⟨rest ++ zone, .inl rfl⟩
  · exact ⟨rest ++ zone, .inr (.inl rfl)⟩
  · exact ⟨rest ++ zone, .inr (.inr ⟨c, hc, rfl⟩)⟩

end

/-! ## Internal addresses -/

/-- The text stands for an address that cannot be reached from outside. -/
def Internal (cs : List Char) : Prop :=
  (∃ n ∈ v4 cs, InternalV4 n) ∨ ∃ gs ∈ v6 cs, LocalV6 gs ∨ EmbeddedV6 gs

/-- The text stands for such an address, and neither its form nor its first digits show it. -/
def Disguised (cs : List Char) : Prop :=
  (∃ n ∈ v4 cs, InternalV4 n ∧ ¬isDotted cs) ∨ ∃ gs ∈ v6 cs, EmbeddedV6 gs

/-- A character of an address. -/
def IsAddressChar (c : Char) : Prop := (digit c).isSome ∨ c = 'x' ∨ c = '.' ∨ c = ':'

/-- What every text of an address is like: it starts with a digit or a colon, and more than a port
stands behind its first colon. -/
structure AddressText (cs : List Char) : Prop where
  head : ∃ c rest, cs = c :: rest ∧ IsAddressChar c
  colons : cs.count ':' ≠ 1

section

variable {n : ℕ} {cs : List Char} {gs : List ℕ}

theorem addressText_of_v4 (h : v4 cs = some n) : AddressText cs where
  head := by
    obtain ⟨c, rest, rfl⟩ := List.exists_cons_of_ne_nil (v4_ne_nil h)
    exact ⟨c, rest, rfl, (v4_chars h List.mem_cons_self).imp_right fun h => h.imp_right .inl⟩
  colons := by
    have hnone : cs.count ':' = 0 := List.count_eq_zero.mpr fun hc =>
      absurd (v4_chars h hc) (by decide)
    omega

theorem addressText_of_v6 (h : v6 cs = some gs) : AddressText cs := by
  obtain ⟨text, zone, rfl, htext⟩ := v6_zoneless h
  have htwo := (zoneless_texts htext).2
  refine ⟨?_, by rw [List.count_append]; omega⟩
  obtain ⟨c, rest, rfl⟩ := List.exists_cons_of_ne_nil (show text ≠ [] by
    rintro rfl; exact absurd htwo (by decide))
  exact ⟨c, rest ++ zone, rfl, zoneless_chars htext List.mem_cons_self⟩

/-- An internal address that is not disguised is written with four decimal numbers, or shows in its
first digits. -/
theorem Internal.disguised_or (h : Internal cs) :
    Disguised cs ∨ (∃ n ∈ v4 cs, InternalV4 n ∧ isDotted cs) ∨ ∃ gs ∈ v6 cs, LocalV6 gs := by
  obtain ⟨n, hn, hinternal⟩ | ⟨gs, hgs, hlocal | hembedded⟩ := h
  · by_cases hdotted : isDotted cs = true
    · exact .inr (.inl ⟨n, hn, hinternal, hdotted⟩)
    · exact .inl (.inl ⟨n, hn, hinternal, hdotted⟩)
  · exact .inr (.inr ⟨gs, hgs, hlocal⟩)
  · exact .inl (.inr ⟨gs, hgs, hembedded⟩)

theorem Disguised.internal (h : Disguised cs) : Internal cs := by
  obtain ⟨n, hn, hinternal, -⟩ | ⟨gs, hgs, hembedded⟩ := h
  · exact .inl ⟨n, hn, hinternal⟩
  · exact .inr ⟨gs, hgs, .inr hembedded⟩

end

end Inet
