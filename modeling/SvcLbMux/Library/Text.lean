import Mathlib.Data.List.DropRight
import Mathlib.Data.List.Infix
import SvcLbMux.Library.Repr

namespace Py

/-- The characters that `str.strip()` removes. -/
def isSpace (c : Char) : Bool :=
  (9 ≤ c.toNat && c.toNat ≤ 13) || (28 ≤ c.toNat && c.toNat ≤ 32) ||
    (8192 ≤ c.toNat && c.toNat ≤ 8202) ||
    c.toNat ∈ [133, 160, 5760, 8232, 8233, 8239, 8287, 12288]

/-- `s.strip()` on characters. -/
def stripChars (cs : List Char) : List Char := (cs.dropWhile isSpace).rdropWhile isSpace

def strip (s : String) : String := String.ofList (stripChars s.toList)

/-- `s.split(sep)` for a separator of one character. -/
def split (s : String) (sep : Char) : List String := (s.toList.splitOn sep).map String.ofList

/-- `[item.strip() for item in s.split(",") if item.strip()]`. -/
def commaItems (s : String) : List String := ((split s ',').map strip).filter (· ≠ "")

/-- The text before and after the first occurrence of a separator, if it occurs. -/
def cutChars (sep : List Char) : List Char → Option (List Char × List Char)
  | [] => none
  | c :: cs =>
    if sep.isPrefixOf (c :: cs) then some ([], (c :: cs).drop sep.length)
    else (cutChars sep cs).map fun p => (c :: p.1, p.2)

/-- `s.split(sep, 1)` where it has two items; `none` is `sep not in s`. -/
def cut (s sep : String) : Option (String × String) :=
  (cutChars sep.toList s.toList).map fun p => (String.ofList p.1, String.ofList p.2)

/-- `s or t`, where a text may be missing. -/
def orText (s t : Option String) : Option String := if s.getD "" ≠ "" then s else t

/-- `s.lower()`, on the ASCII letters. -/
def lower (s : String) : String := String.ofList (s.toList.map Char.toLower)

/-- The characters that `int()` skips at both ends of a text. -/
def isIntSpace (c : Char) : Bool := isSpace c && !(28 ≤ c.toNat && c.toNat ≤ 31)

/-- The code points of the zeros of the Unicode decimal digits; each is followed by its 1 to 9. -/
def decimalZeros : List Nat :=
  [48, 1632, 1776, 1984, 2406, 2534, 2662, 2790, 2918, 3046, 3174, 3302, 3430, 3558, 3664, 3792,
    3872, 4160, 4240, 6112, 6160, 6470, 6608, 6784, 6800, 6992, 7088, 7232, 7248, 42528, 43216,
    43264, 43472, 43504, 43600, 44016, 65296, 66720, 68912, 69734, 69872, 69942, 70096, 70384,
    70736, 70864, 71248, 71360, 71472, 71904, 72016, 72784, 73040, 73120, 73552, 92768, 92864,
    93008, 120782, 120792, 120802, 120812, 120822, 123200, 123632, 124144, 125264, 130032]

/-- `unicodedata.decimal(c)`. -/
def digitValue (c : Char) : Option Nat :=
  (decimalZeros.find? fun z => z ≤ c.toNat && c.toNat ≤ z + 9).map (c.toNat - ·)

/-- A run of decimal digits, with single underscores allowed between two digits. -/
def digitRun : List Char → Option (List Nat)
  | [] => none
  | [c] => (digitValue c).map fun d => [d]
  | c :: '_' :: cs => (digitValue c).bind fun d => (digitRun cs).map fun ds => d :: ds
  | c :: cs => (digitValue c).bind fun d => (digitRun cs).map fun ds => d :: ds

/-- The longest run of digits that `int()` converts. -/
def maxStrDigits : Nat := 4300

def unsignedInt (cs : List Char) : Option Nat :=
  (digitRun cs).bind fun ds =>
    if ds.length ≤ maxStrDigits then some (ds.foldl (fun n d => 10 * n + d) 0) else none

/-- `int(s)` for a text; `none` is the `ValueError`. -/
def int (s : String) : Option Int :=
  match (s.toList.dropWhile isIntSpace).rdropWhile isIntSpace with
  | '-' :: cs => (unsignedInt cs).map fun n => -(n : Int)
  | '+' :: cs => (unsignedInt cs).map fun n => (n : Int)
  | cs => (unsignedInt cs).map fun n => (n : Int)

/-- What the `ValueError` of `int(s)` says; the literal is shown in 200 characters at most. -/
def intError (s : String) : String :=
  let unsigned :=
    match s.toList.dropWhile isIntSpace with
    | '-' :: cs => cs
    | '+' :: cs => cs
    | cs => cs
  let digits := digitRun (unsigned.takeWhile fun c => c = '_' || (digitValue c).isSome)
  let length := (digits.map List.length).getD 0
  if maxStrDigits < length then
    "Exceeds the limit (4300 digits) for integer string conversion: value has " ++
      toString length ++ " digits; use sys.set_int_max_str_digits() to increase the limit"
  else "invalid literal for int() with base 10: " ++ String.ofList ((reprText s).toList.take 200)

/-- `str(n)` for an integer. -/
def str (n : Int) : String := toString n

/-! ## Stripping -/

theorem length_stripChars_le (cs : List Char) :
    (stripChars cs).length ≤ (cs.dropWhile isSpace).length :=
  (List.rdropWhile_prefix isSpace _).length_le

theorem stripChars_eq_self {cs : List Char} (hhead : ∀ c ∈ cs.head?, isSpace c = false)
    (hlast : ∀ c ∈ cs.getLast?, isSpace c = false) : stripChars cs = cs := by
  have hdrop : cs.dropWhile isSpace = cs := by
    cases cs with
    | nil => rfl
    | cons c rest => simp [List.dropWhile, hhead c (by simp)]
  rw [stripChars, hdrop, List.rdropWhile_eq_self_iff]
  intro hne
  simp [hlast _ (List.getLast?_eq_some_getLast hne)]

theorem head_of_stripChars_eq_self {cs : List Char} (h : stripChars cs = cs) :
    ∀ c ∈ cs.head?, isSpace c = false := by
  intro c hc
  cases cs with
  | nil => simp at hc
  | cons b rest =>
    obtain rfl : b = c := by simpa using hc
    by_contra hb
    rw [Bool.not_eq_false] at hb
    have hle := length_stripChars_le (b :: rest)
    rw [h, List.dropWhile_cons_of_pos hb] at hle
    have := (List.dropWhile_sublist isSpace (l := rest)).length_le
    simp only [List.length_cons] at hle
    omega

theorem stripChars_cons_of_isSpace {c : Char} (h : isSpace c = true) (cs : List Char) :
    stripChars (c :: cs) = stripChars cs := by
  rw [stripChars, List.dropWhile_cons_of_pos h, stripChars]

theorem strip_eq_self_iff (s : String) : strip s = s ↔ stripChars s.toList = s.toList := by
  rw [strip, ← String.toList_inj, String.toList_ofList]

theorem strip_eq_self {s : String} (h : ∀ c ∈ s.toList, isSpace c = false) : strip s = s :=
  (strip_eq_self_iff s).mpr (stripChars_eq_self (fun c hc => h c (List.mem_of_mem_head? hc))
    (fun c hc => h c (List.mem_of_getLast? hc)))

theorem stripChars_sublist (cs : List Char) : (stripChars cs).Sublist cs :=
  (List.rdropWhile_prefix isSpace _).sublist.trans (List.dropWhile_sublist isSpace)

theorem stripChars_stripChars (cs : List Char) : stripChars (stripChars cs) = stripChars cs := by
  apply stripChars_eq_self
  · intro c hc
    have hne : stripChars cs ≠ [] := List.ne_nil_of_mem (List.mem_of_mem_head? hc)
    have hhead : (cs.dropWhile isSpace).head? = some c := by
      obtain ⟨rest, hrest⟩ := List.rdropWhile_prefix isSpace (cs.dropWhile isSpace)
      rw [← hrest]
      exact (List.head?_append_of_ne_nil _ hne).trans hc
    have hspace := List.head?_dropWhile_not isSpace cs
    rwa [hhead] at hspace
  · intro c hc
    have hne : stripChars cs ≠ [] := List.ne_nil_of_mem (List.mem_of_getLast? hc)
    have hlast := List.rdropWhile_last_not isSpace (cs.dropWhile isSpace) hne
    rw [Option.mem_def, List.getLast?_eq_some_getLast hne] at hc
    rw [Option.some.inj hc.symm]
    exact Bool.eq_false_iff.mpr hlast

@[simp] theorem strip_strip (s : String) : strip (strip s) = strip s := by
  rw [strip_eq_self_iff, strip, String.toList_ofList, stripChars_stripChars]

/-! ## Items between commas -/

theorem notMem_of_mem_splitOn {α : Type*} [BEq α] [LawfulBEq α] {sep : α} {as l : List α}
    (h : l ∈ as.splitOn sep) : sep ∉ l := by
  induction as generalizing l with
  | nil => simp_all
  | cons a as ih =>
    rw [List.splitOn_cons_eq_if_modifyHead] at h
    split_ifs at h with ha
    · rcases List.mem_cons.mp h with rfl | h
      · simp
      · exact ih h
    · cases hsplit : as.splitOn sep with
      | nil => exact absurd hsplit (List.splitOn_ne_nil sep as)
      | cons m ms =>
        rw [hsplit] at h
        rcases List.mem_cons.mp h with rfl | h
        · have hm := ih (hsplit ▸ List.mem_cons_self)
          simp only [List.mem_cons, not_or]
          exact ⟨fun heq => ha (by simp [heq]), hm⟩
        · exact ih (hsplit ▸ List.mem_cons_of_mem _ h)

structure CommaItem (s : String) : Prop where
  ne_empty : s ≠ ""
  comma : ',' ∉ s.toList
  tight : strip s = s

theorem commaItem_of_mem {s text : String} (h : s ∈ commaItems text) : CommaItem s := by
  obtain ⟨hmem, hne⟩ := List.mem_filter.mp h
  obtain ⟨piece, hpiece, rfl⟩ := List.mem_map.mp hmem
  obtain ⟨cs, hcs, rfl⟩ := List.mem_map.mp hpiece
  refine ⟨by simpa using hne, fun hcomma => ?_, strip_strip _⟩
  rw [strip, String.toList_ofList, String.toList_ofList] at hcomma
  exact notMem_of_mem_splitOn hcs ((stripChars_sublist cs).subset hcomma)

/-- The items of a split are the texts without the separator that are joined by it. -/
theorem split_eq_iff {s : String} {sep : Char} {items : List String} (hne : items ≠ []) :
    split s sep = items ↔ s.toList = [sep].intercalate (items.map String.toList) ∧
      ∀ item ∈ items, sep ∉ item.toList := by
  have hback : ∀ lists : List (List Char), (lists.map String.ofList).map String.toList = lists := by
    intro lists
    rw [List.map_map]
    exact (List.map_congr_left fun l _ => String.toList_ofList).trans (List.map_id lists)
  constructor
  · rintro rfl
    refine ⟨?_, fun item hitem => ?_⟩
    · rw [split, hback]
      exact (List.intercalate_splitOn sep).symm
    · obtain ⟨l, hl, rfl⟩ := List.mem_map.mp hitem
      rw [String.toList_ofList]
      exact notMem_of_mem_splitOn hl
  · rintro ⟨hjoin, hitems⟩
    have hlists : ∀ l ∈ items.map String.toList, sep ∉ l := by
      intro l hl
      obtain ⟨item, hitem, rfl⟩ := List.mem_map.mp hl
      exact hitems item hitem
    rw [split, hjoin, List.splitOn_intercalate sep hlists (by simpa using hne), List.map_map]
    exact (List.map_congr_left fun item _ => String.ofList_toList).trans (List.map_id items)

theorem split_ne_nil (s : String) (sep : Char) : split s sep ≠ [] := by
  simp [split, List.splitOn_ne_nil]

theorem split_injective (sep : Char) : Function.Injective fun s => split s sep := by
  intro s t h
  have hs := ((split_eq_iff (split_ne_nil t sep)).mp h).1
  have ht := ((split_eq_iff (split_ne_nil t sep)).mp rfl).1
  exact String.toList_inj.mp (hs.trans ht.symm)

theorem split_eq_singleton_iff {s : String} {sep : Char} {a : String} :
    split s sep = [a] ↔ s = a ∧ sep ∉ a.toList := by
  rw [split_eq_iff (List.cons_ne_nil _ _), List.forall_mem_singleton, ← String.toList_inj,
    List.map_singleton, List.intercalate_singleton]

theorem split_eq_pair_iff {s : String} {sep : Char} {a b : String} :
    split s sep = [a, b] ↔
      s.toList = a.toList ++ sep :: b.toList ∧ sep ∉ a.toList ∧ sep ∉ b.toList := by
  rw [split_eq_iff (List.cons_ne_nil _ _), List.forall_mem_cons, List.forall_mem_singleton,
    List.map_cons, List.map_singleton, List.intercalate_cons_cons, List.intercalate_singleton,
    List.append_assoc, List.singleton_append]

theorem split_intercalate {items : List String} (hne : items ≠ [])
    (h : ∀ s ∈ items, ',' ∉ s.toList) : split (String.intercalate "," items) ',' = items :=
  (split_eq_iff hne).mpr ⟨String.toList_intercalate, h⟩

theorem commaItems_intercalate {items : List String} (h : ∀ s ∈ items, CommaItem s) :
    commaItems (String.intercalate "," items) = items := by
  rcases eq_or_ne items [] with rfl | hne
  · decide +kernel
  · have hstrip : items.map strip = items :=
      (List.map_congr_left fun s hs => (h s hs).tight).trans (List.map_id items)
    rw [commaItems, split_intercalate hne fun s hs => (h s hs).comma, hstrip,
      List.filter_eq_self]
    exact fun s hs => by simpa using (h s hs).ne_empty

/-! ## Prefixes -/

theorem append_left_cancel {pre s t : String} (h : pre ++ s = pre ++ t) : s = t := by
  have hl := congrArg String.toList h
  rw [String.toList_append, String.toList_append] at hl
  exact String.toList_inj.mp (List.append_cancel_left hl)

/-- A text has a prefix, behind which the rest of it stands, or nothing stands behind it. -/
theorem prefix_cases (pre s : String) :
    (∃ rest, s = pre ++ rest ∧ pre.toList.isPrefixOf s.toList = true ∧
      String.ofList (s.toList.drop pre.toList.length) = rest) ∨
    pre.toList.isPrefixOf s.toList = false ∧ ∀ rest, s ≠ pre ++ rest := by
  cases hpre : pre.toList.isPrefixOf s.toList with
  | true =>
    obtain ⟨rest, hrest⟩ := List.isPrefixOf_iff_prefix.mp hpre
    refine Or.inl ⟨String.ofList rest, ?_, rfl, ?_⟩
    · rw [← String.toList_inj, ← hrest, String.toList_append, String.toList_ofList]
    · rw [← hrest, List.drop_left]
  | false =>
    refine Or.inr ⟨rfl, ?_⟩
    rintro rest rfl
    rw [String.toList_append] at hpre
    have htrue := List.isPrefixOf_iff_prefix.mpr (List.prefix_append pre.toList rest.toList)
    rw [htrue] at hpre
    cases hpre

/-! ## Cutting at a separator -/

theorem cutChars_singleton {sep : Char} {a : List Char} (h : sep ∉ a) (b : List Char) :
    cutChars [sep] (a ++ sep :: b) = some (a, b) := by
  induction a with
  | nil => simp [cutChars]
  | cons c a ih =>
    simp only [List.mem_cons, not_or] at h
    simp [cutChars, h.1, ih h.2]

theorem cutChars_eq_none {sep : Char} {a : List Char} (h : sep ∉ a) : cutChars [sep] a = none := by
  induction a with
  | nil => rfl
  | cons c a ih =>
    simp only [List.mem_cons, not_or] at h
    simp [cutChars, h.1, ih h.2]

theorem cutChars_singleton_eq_some {sep : Char} {s a b : List Char} :
    cutChars [sep] s = some (a, b) ↔ s = a ++ sep :: b ∧ sep ∉ a := by
  constructor
  · intro h
    by_cases hmem : sep ∈ s
    · obtain ⟨a', b', rfl, hnot⟩ := List.eq_append_cons_of_mem hmem
      rw [cutChars_singleton hnot] at h
      obtain ⟨rfl, rfl⟩ := Prod.mk.inj (Option.some.inj h)
      exact ⟨rfl, hnot⟩
    · rw [cutChars_eq_none hmem] at h
      exact nomatch h
  · rintro ⟨rfl, hnot⟩
    exact cutChars_singleton hnot b

/-- A two-character separator is found at its place when its second character does not occur
before it. -/
theorem cutChars_pair {x y : Char} {a : List Char} (hxy : x ≠ y) (h : y ∉ a) (b : List Char) :
    cutChars [x, y] (a ++ x :: y :: b) = some (a, b) := by
  induction a with
  | nil => simp [cutChars]
  | cons c a ih =>
    simp only [List.mem_cons, not_or] at h
    have hnot : [x, y].isPrefixOf (c :: (a ++ x :: y :: b)) = false := by
      cases a with
      | nil => simp [List.isPrefixOf, hxy.symm]
      | cons d a =>
        simp only [List.mem_cons, not_or] at h
        simp [List.isPrefixOf, h.2.1]
    simp [cutChars, hnot, ih h.2]

theorem cutChars_pair_isSome {x y : Char} (a b : List Char) :
    (cutChars [x, y] (a ++ x :: y :: b)).isSome := by
  induction a with
  | nil => simp [cutChars]
  | cons c a ih =>
    rw [List.cons_append, cutChars]
    split_ifs
    · rfl
    · simpa using ih

/-- `sep.join(items)` splits back into its items, the spaces of a `", "` going to the items. -/
theorem intercalate_pair (x y : Char) (l : List Char) (ls : List (List Char)) :
    [x, y].intercalate (l :: ls) = [x].intercalate (l :: ls.map (y :: ·)) := by
  induction ls generalizing l with
  | nil => rfl
  | cons m ls ih =>
    have hm := ih m
    simp only [List.map_cons, List.intercalate_cons_cons, List.append_assoc, List.cons_append,
      List.nil_append] at hm ⊢
    rw [hm]
    cases ls with
    | nil => simp
    | cons k ls => simp [List.intercalate_cons_cons]

theorem append_cons_inj {α : Type*} {x : α} {a a' b b' : List α} (ha : x ∉ a) (ha' : x ∉ a')
    (h : a ++ x :: b = a' ++ x :: b') : a = a' ∧ b = b' := by
  induction a generalizing a' with
  | nil =>
    cases a' with
    | nil => exact ⟨rfl, (List.cons.inj h).2⟩
    | cons y a' => exact absurd (List.cons.inj h).1 fun he => ha' (by simp [he])
  | cons y a ih =>
    cases a' with
    | nil => exact absurd (List.cons.inj h).1.symm fun he => ha (by simp [he])
    | cons z a' =>
      obtain ⟨rfl, ht⟩ := List.cons.inj h
      simp only [List.mem_cons, not_or] at ha ha'
      obtain ⟨rfl, hb⟩ := ih ha.2 ha'.2 ht
      exact ⟨rfl, hb⟩

theorem append_cons_inj_last {α : Type*} {x : α} {a a' b b' : List α} (hb : x ∉ b) (hb' : x ∉ b')
    (h : a ++ x :: b = a' ++ x :: b') : a = a' ∧ b = b' := by
  have hreverse := congrArg List.reverse h
  simp only [List.reverse_append, List.reverse_cons, List.append_assoc,
    List.singleton_append] at hreverse
  obtain ⟨hlast, hfirst⟩ := append_cons_inj (by simpa using hb) (by simpa using hb') hreverse
  exact ⟨List.reverse_injective hfirst, List.reverse_injective hlast⟩

/-! ## Decimal integers -/

theorem digitValue_of_isDigit {c : Char} (h : c.isDigit) :
    digitValue c = some (c.toNat - '0'.toNat) := by
  obtain ⟨hlo, hhi⟩ := Char.isDigit_iff_toNat.mp h
  have hlo' : 48 ≤ c.toNat := hlo
  have hhi' : c.toNat ≤ 57 := hhi
  simp [digitValue, decimalZeros, hlo', hhi']

theorem digitRun_of_isDigit {cs : List Char} (hne : cs ≠ []) (h : ∀ c ∈ cs, c.isDigit) :
    digitRun cs = some (cs.map fun c => c.toNat - '0'.toNat) := by
  induction cs with
  | nil => exact absurd rfl hne
  | cons c rest ih =>
    have hc := digitValue_of_isDigit (h c (by simp))
    cases rest with
    | nil => simp [digitRun, hc]
    | cons d rest =>
      have hd : d ≠ '_' := by
        rintro rfl
        exact absurd (h '_' (by simp)) (by decide)
      rw [digitRun.eq_4 _ _ (by simp) (by simp [hd]), hc,
        ih (by simp) fun e he => h e (List.mem_cons_of_mem _ he)]
      rfl

theorem unsignedInt_toDigits {n : Nat} (h : (Nat.toDigits 10 n).length ≤ maxStrDigits) :
    unsignedInt (Nat.toDigits 10 n) = some n := by
  rw [unsignedInt, digitRun_of_isDigit Nat.toDigits_ne_nil fun c hc =>
    Nat.isDigit_of_mem_toDigits (by decide) (by decide) hc]
  simp only [Option.bind_some, List.length_map, h, if_true, List.foldl_map, Option.some.injEq]
  exact (Nat.ofDigitChars_eq_foldl ..).symm.trans Nat.ofDigitChars_ten_toDigits

theorem toList_str (n : ℕ) : (str n).toList = Nat.toDigits 10 n := by
  exact Nat.toList_repr

theorem isDigit_of_mem_str {n : ℕ} {c : Char} (h : c ∈ (str n).toList) : c.isDigit = true := by
  rw [toList_str] at h
  exact Nat.isDigit_of_mem_toDigits (by decide) (by decide) h

theorem str_toList_ne_nil (n : ℕ) : (str n).toList ≠ [] := by
  rw [toList_str]
  exact Nat.toDigits_ne_nil

theorem isSpace_of_isDigit {c : Char} (h : c.isDigit = true) : isSpace c = false := by
  obtain ⟨hlo, hhi⟩ := Char.isDigit_iff_toNat.mp h
  have hlo' : 48 ≤ c.toNat := hlo
  have hhi' : c.toNat ≤ 57 := hhi
  simp only [isSpace, Bool.or_eq_false_iff, Bool.and_eq_false_imp, decide_eq_true_eq,
    decide_eq_false_iff_not, List.mem_cons, List.not_mem_nil, or_false]
  omega

theorem strip_str (n : ℕ) : strip (str n) = str n :=
  strip_eq_self fun _ hc => isSpace_of_isDigit (isDigit_of_mem_str hc)

/-- `int(str(n)) == n`, up to the digit limit of `int()`. -/
theorem int_str {n : ℕ} (h : (Nat.toDigits 10 n).length ≤ maxStrDigits) :
    int (str n) = some (n : ℤ) := by
  have hspace : ∀ c ∈ (str n).toList, isIntSpace c = false := by
    intro c hc
    simp [isIntSpace, isSpace_of_isDigit (isDigit_of_mem_str hc)]
  have hstrip : ((str n).toList.dropWhile isIntSpace).rdropWhile isIntSpace = (str n).toList := by
    rw [List.dropWhile_eq_self_iff.mpr fun hl => by simp [hspace _ (List.getElem_mem hl)],
      List.rdropWhile_eq_self_iff]
    intro hne
    simp [hspace _ (List.getLast_mem hne)]
  have hu := unsignedInt_toDigits h
  rw [← toList_str] at hu
  rw [int, hstrip]
  split
  · rename_i cs heq
    exact absurd (isDigit_of_mem_str (n := n) (c := '-') (by simp [heq])) (by decide)
  · rename_i cs heq
    exact absurd (isDigit_of_mem_str (n := n) (c := '+') (by simp [heq])) (by decide)
  · rw [hu]
    rfl

example : int " 1_000 " = some 1000 := by decide +kernel
example : cut "http:80->443" "->" = some ("http:80", "443") := by decide +kernel

end Py
