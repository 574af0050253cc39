import Mathlib.Data.Nat.Digits.Lemmas
import Paranoid.ByteCodecs

namespace Paranoid.JsonText

open ByteCodecs

variable {α β : Type}

def isDigit (b : UInt8) : Bool := 48 ≤ b && b ≤ 57

/-- What follows a value: it does not go on with a digit. -/
def Ends (rest : Bytes) : Prop := ∀ b ∈ rest.head?, isDigit b = false

/-- The text of a value tells the value, and where it ends. -/
def Delimited (print : α → Bytes) : Prop :=
  ∀ ⦃a b x y⦄, Ends x → Ends y → print a ++ x = print b ++ y → a = b ∧ x = y

@[simp] theorem ends_cons {b : UInt8} {rest : Bytes} : Ends (b :: rest) ↔ isDigit b = false := by
  simp [Ends]

def hexDigit (n : Nat) : UInt8 := if n < 10 then .ofNat (48 + n) else .ofNat (87 + n)

def escape (b : UInt8) : Bytes :=
  if b = 34 then [92, 34]
  else if b = 92 then [92, 92]
  else if b = 8 then [92, 98]
  else if b = 9 then [92, 116]
  else if b = 10 then [92, 110]
  else if b = 12 then [92, 102]
  else if b = 13 then [92, 114]
  else if b < 32 then [92, 117, 48, 48, hexDigit (b.toNat / 16), hexDigit (b.toNat % 16)]
  else [b]

def string (text : Bytes) : Bytes := 34 :: (text.flatMap escape ++ [34])

def number (n : Nat) : Bytes :=
  if n = 0 then [48] else (Nat.digits 10 n).reverse.map fun d => .ofNat (48 + d)

def indentation (depth : Nat) : Bytes := List.replicate (2 * depth) 32

/-- A field of an object, behind its indentation. -/
def field (depth : Nat) (key value : Bytes) : Bytes :=
  indentation depth ++ (string key ++ (58 :: 32 :: value))

/-- The fields of an object, each on a line of its own. -/
def object (depth : Nat) (fields : List Bytes) : Bytes :=
  if fields = [] then [123, 125]
  else 123 :: 10 :: (List.intercalate [44, 10] fields ++ (10 :: (indentation depth ++ [125])))

section Strings

/-- The bytes that are written with a backslash. -/
def escaped : List UInt8 := 34 :: 92 :: (List.range 32).map UInt8.ofNat

theorem mem_escaped_of_lt {b : UInt8} (h : b < 32) : b ∈ escaped := by
  refine List.mem_cons_of_mem _ (List.mem_cons_of_mem _ (List.mem_map.2 ⟨b.toNat, ?_, UInt8.ofNat_toNat⟩))
  exact List.mem_range.2 (UInt8.lt_iff_toNat_lt.1 h)

theorem escape_plain {b : UInt8} (h : b ∉ escaped) : escape b = [b] ∧ b ≠ 34 ∧ b ≠ 92 := by
  have hquote : b ≠ 34 := fun he => h (he ▸ List.mem_cons_self)
  have hbackslash : b ≠ 92 := fun he => h (he ▸ List.mem_cons_of_mem _ List.mem_cons_self)
  have hlarge : ¬b < 32 := fun hb => h (mem_escaped_of_lt hb)
  have hne : ∀ n : UInt8, n < 32 → b ≠ n := fun n hn he => hlarge (he ▸ hn)
  refine ⟨?_, hquote, hbackslash⟩
  rw [escape, if_neg hquote, if_neg hbackslash, if_neg (hne 8 (by decide)), if_neg (hne 9 (by decide)),
    if_neg (hne 10 (by decide)), if_neg (hne 12 (by decide)), if_neg (hne 13 (by decide)), if_neg hlarge]

theorem escape_escaped : ∀ a ∈ escaped, (escape a).head? = some 92 ∧
    ∀ b ∈ escaped, (escape a).isPrefixOf (escape b) → a = b := by decide +kernel

theorem escape_ne_nil (b : UInt8) : escape b ≠ [] := by
  by_cases h : b ∈ escaped
  · intro hnil
    have hhead := (escape_escaped b h).1
    rw [hnil] at hhead
    cases hhead
  · rw [(escape_plain h).1]
    exact List.cons_ne_nil b []

/-- No text of a byte begins with the text of another. -/
theorem escape_delimited {a b : UInt8} {x y : Bytes} (h : escape a ++ x = escape b ++ y) :
    a = b ∧ x = y := by
  have hsame : a = b := by
    by_cases ha : a ∈ escaped
    · by_cases hb : b ∈ escaped
      · rcases List.append_eq_append_iff.1 h with ⟨between, hbetween, -⟩ | ⟨between, hbetween, -⟩
        · refine (escape_escaped a ha).2 b hb (List.isPrefixOf_iff_prefix.2 ?_)
          exact ⟨between, hbetween.symm⟩
        · refine ((escape_escaped b hb).2 a ha (List.isPrefixOf_iff_prefix.2 ?_)).symm
          exact ⟨between, hbetween.symm⟩
      · exfalso
        have hhead := congrArg List.head? h
        rw [List.head?_append_of_ne_nil _ (escape_ne_nil a),
          (escape_escaped a ha).1, (escape_plain hb).1] at hhead
        exact (escape_plain hb).2.2 (Option.some.inj hhead).symm
    · by_cases hb : b ∈ escaped
      · exfalso
        have hhead := congrArg List.head? h
        rw [List.head?_append_of_ne_nil _ (escape_ne_nil b),
          (escape_escaped b hb).1, (escape_plain ha).1] at hhead
        exact (escape_plain ha).2.2 (Option.some.inj hhead)
      · rw [(escape_plain ha).1, (escape_plain hb).1] at h
        exact (List.cons.inj h).1
  subst hsame
  exact ⟨rfl, List.append_cancel_left h⟩

theorem escape_head_ne_quote (b : UInt8) (x y : Bytes) : escape b ++ x ≠ 34 :: y := by
  intro h
  have hhead := congrArg List.head? h
  rw [List.head?_append_of_ne_nil _ (escape_ne_nil b), List.head?_cons] at hhead
  by_cases hb : b ∈ escaped
  · rw [(escape_escaped b hb).1] at hhead
    exact absurd hhead (by decide)
  · rw [(escape_plain hb).1] at hhead
    exact (escape_plain hb).2.1 (Option.some.inj hhead)

/-- The first quote that is not behind a backslash ends a string. -/
theorem string_delimited : Delimited string := by
  intro a b x y _ _ h
  simp only [string, List.cons_append, List.append_assoc,
    List.cons.injEq, true_and, List.nil_append] at h
  induction a generalizing b with
  | nil =>
      cases b with
      | nil => exact ⟨rfl, (List.cons.inj h).2⟩
      | cons c b =>
          rw [List.flatMap_nil, List.flatMap_cons, List.append_assoc] at h
          exact absurd h.symm (escape_head_ne_quote c _ x)
  | cons c a ih =>
      rw [List.flatMap_cons, List.append_assoc] at h
      cases b with
      | nil => exact absurd h (escape_head_ne_quote c _ y)
      | cons d b =>
          rw [List.flatMap_cons, List.append_assoc] at h
          obtain ⟨rfl, htail⟩ := escape_delimited h
          obtain ⟨rfl, hrest⟩ := ih htail
          exact ⟨rfl, hrest⟩

end Strings

section Numbers

theorem isDigit_number {n : Nat} {b : UInt8} (h : b ∈ number n) : isDigit b = true := by
  have hdigits : ∀ d < 10, isDigit (.ofNat (48 + d)) = true := by decide
  unfold number at h
  split at h
  · rw [List.mem_singleton.1 h]
    rfl
  · obtain ⟨d, hd, rfl⟩ := List.mem_map.1 h
    exact hdigits d (Nat.digits_lt_base (by decide) (List.mem_reverse.1 hd))

/-- The number that the digits spell. -/
def numberOf (digits : Bytes) : Nat := Nat.ofDigits 10 (digits.map fun b => b.toNat - 48).reverse

theorem numberOf_number (n : Nat) : numberOf (number n) = n := by
  have hvalue : ∀ d < 10, (UInt8.ofNat (48 + d)).toNat - 48 = d := by decide
  unfold number
  split
  · rename_i hzero
    rw [hzero]
    rfl
  · rw [numberOf, List.map_map, ← List.map_reverse, List.reverse_reverse]
    have hmap : (Nat.digits 10 n).map ((fun b => b.toNat - 48) ∘ fun d => UInt8.ofNat (48 + d)) =
      Nat.digits 10 n := by
      refine (List.map_congr_left fun d hd => ?_).trans (List.map_id _)
      exact hvalue d (Nat.digits_lt_base (by decide) hd)
    rw [hmap, Nat.ofDigits_digits]

theorem number_delimited : Delimited number := by
  intro a b x y hx hy h
  have htake : ∀ n z, Ends z → (number n ++ z).takeWhile isDigit = number n := by
    intro n z hz
    rw [List.takeWhile_append_of_pos fun b hb => isDigit_number hb]
    cases z with
    | nil => simp
    | cons c z => simp [List.takeWhile, ends_cons.1 hz]
  have hnumber : number a = number b := by
    rw [← htake a x hx, h, htake b y hy]
  refine ⟨?_, List.append_cancel_left (hnumber ▸ h)⟩
  rw [← numberOf_number a, hnumber, numberOf_number]

end Numbers

section Objects

variable {print : α → Bytes} {other : β → Bytes} {depth : Nat} {key : Bytes}

theorem Delimited.field (h : Delimited print) : Delimited fun a => field depth key (print a) := by
  intro a b x y hx hy heq
  simp only [JsonText.field, List.append_assoc, List.cons_append] at heq
  have hvalue := List.append_cancel_left (List.append_cancel_left heq)
  simp only [List.cons.injEq, true_and] at hvalue
  exact h hx hy hvalue

theorem Delimited.inj (h : Delimited print) {a b : α} (heq : print a = print b) : a = b :=
  (h (x := []) (y := []) (by simp [Ends]) (by simp [Ends]) (by rw [heq])).1

/-- A comma or the end of the line follows each field. -/
theorem Delimited.lines (h : Delimited print) {x y : Bytes} : ∀ {a b : α} {as bs : List α},
    List.intercalate [44, 10] ((a :: as).map print) ++ 10 :: x = List.intercalate [44,
      10] ((b :: bs).map print) ++ 10 :: y →
      a :: as = b :: bs ∧ x = y := by
  intro a b as
  induction as generalizing a b with
  | nil =>
      intro bs heq
      cases bs with
      | nil =>
          simp only [List.map_cons, List.map_nil, List.intercalate_singleton] at heq
          obtain ⟨rfl, hrest⟩ := h (by simp [isDigit]) (by simp [isDigit]) heq
          exact ⟨rfl, (List.cons.inj hrest).2⟩
      | cons c bs =>
          simp only [List.map_cons, List.map_nil, List.intercalate_singleton,
            List.intercalate_cons_cons, List.append_assoc] at heq
          obtain ⟨-, hrest⟩ := h (by simp [isDigit]) (by simp [isDigit]) heq
          cases hrest
  | cons c as ih =>
      intro bs heq
      cases bs with
      | nil =>
          simp only [List.map_cons, List.map_nil, List.intercalate_singleton,
            List.intercalate_cons_cons, List.append_assoc] at heq
          obtain ⟨-, hrest⟩ := h (by simp [isDigit]) (by simp [isDigit]) heq
          cases hrest
      | cons d bs =>
          simp only [List.map_cons, List.intercalate_cons_cons, List.append_assoc] at heq
          obtain ⟨rfl, hrest⟩ := h (by simp [isDigit]) (by simp [isDigit]) heq
          simp only [List.cons_append, List.nil_append, List.cons.injEq, true_and] at hrest
          obtain ⟨htail, hafter⟩ := ih hrest
          exact ⟨by rw [htail], hafter⟩

theorem Delimited.object (h : Delimited print) :
    Delimited fun as : List α => object depth (as.map print) := by
  intro as bs x y _ _ heq
  cases as with
  | nil =>
      cases bs with
      | nil => exact ⟨rfl, by simpa [JsonText.object] using heq⟩
      | cons b bs => simp [JsonText.object] at heq
  | cons a as =>
      cases bs with
      | nil => simp [JsonText.object] at heq
      | cons b bs =>
          simp only [JsonText.object, List.map_cons, reduceCtorEq,
            if_false, List.cons_append, List.append_assoc,
            List.cons.injEq, true_and] at heq
          simp only [← List.map_cons] at heq
          obtain ⟨hsame, hrest⟩ := h.lines heq
          refine ⟨hsame, ?_⟩
          have htail := List.append_cancel_left hrest
          exact (List.cons.inj htail).2

end Objects

end Paranoid.JsonText
