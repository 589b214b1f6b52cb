import Mathlib.Data.Rat.Defs
import SvcLbMux.Library.Dict
import SvcLbMux.Library.Text

namespace Py

inductive Exception where
  | valueError (message : String)
  /-- `json.JSONDecodeError`, a `ValueError`. -/
  | jsonDecodeError (message : String)
  | typeError
  | keyError (key : String)
  | attributeError (name : String)
  | overflowError
  | recursionError
deriving DecidableEq

namespace Exception

/-- The message of what `except ValueError` catches. -/
def asValueError : Exception → Option String
  | .valueError message => some message
  | .jsonDecodeError message => some message
  | _ => none

/-- What `except (TypeError, ValueError)` catches. -/
def isTypeOrValueError (e : Exception) : Bool := e = .typeError || e.asValueError.isSome

end Exception

/-- A decoded value. Python also reads `Infinity` and `NaN`. -/
inductive Json where
  | null
  | bool (value : Bool)
  | int (value : Int)
  | float (value : ℚ)
  | infinity (negative : Bool)
  | nan
  | str (value : String)
  | arr (items : List Json)
  | obj (members : List (String × Json))

namespace Json

/-- `bool(value)`. -/
def truthy : Json → Bool
  | .null => false
  | .bool b => b
  | .int n => n ≠ 0
  | .float x => x ≠ 0
  | .infinity _ => true
  | .nan => true
  | .str s => s ≠ ""
  | .arr items => !items.isEmpty
  | .obj members => !members.isEmpty

/-- `value or {}`. -/
def orEmpty (value : Json) : Json := if value.truthy then value else .obj []

/-- The value of a key of a dict; the last of two members with one key counts. -/
def lookup (members : List (String × Json)) (key : String) : Option Json :=
  (Dict.ofList members).get key

/-- `value.get(key)`. -/
def get (key : String) : Json → Except Exception (Option Json)
  | .obj members => .ok (lookup members key)
  | _ => .error (.attributeError "get")

/-- `value[key]`. -/
def item (key : String) : Json → Except Exception Json
  | .obj members =>
    match lookup members key with
    | none => .error (.keyError key)
    | some value => .ok value
  | _ => .error .typeError

/-- `for item in value`. -/
def iter : Json → Except Exception (List Json)
  | .str s => .ok (s.toList.map fun c => .str (String.singleton c))
  | .arr items => .ok items
  | .obj members => .ok ((Dict.ofList members).keys.map .str)
  | _ => .error .typeError

/-- `int(value)`. -/
def toInt : Json → Except Exception Int
  | .null => .error .typeError
  | .bool b => .ok (if b then 1 else 0)
  | .int n => .ok n
  | .float x => .ok (x.num.tdiv x.den)
  | .infinity _ => .error .overflowError
  | .nan => .error (.valueError "cannot convert float NaN to integer")
  | .str s =>
    match Py.int s with
    | none => .error (.valueError (intError s))
    | some n => .ok n
  | .arr _ => .error .typeError
  | .obj _ => .error .typeError

/-- `value == text`. -/
def isText (text : String) : Json → Bool
  | .str s => s = text
  | _ => false

/-- `dict(value)`, for a dict. -/
def members : Json → Dict String Json
  | .obj members => Dict.ofList members
  | _ => Dict.empty

@[simp] theorem get_obj (key : String) (members : List (String × Json)) :
    (Json.obj members).get key = .ok (lookup members key) := rfl

theorem get_of_not_obj {value : Json} (h : ∀ members, value ≠ .obj members) (key : String) :
    value.get key = .error (.attributeError "get") := by
  cases value with
  | obj members => exact absurd rfl (h members)
  | _ => rfl

@[simp] theorem truthy_obj (members : List (String × Json)) :
    (Json.obj members).truthy = !members.isEmpty := rfl

theorem any_isText {value : Option Json} {text : String} :
    value.any (isText text) = true ↔ value = some (.str text) := by
  cases value with
  | none => simp
  | some value => cases value <;> simp [isText]

theorem get_members (members : List (String × Json)) (key : String) :
    (Json.obj members).members.get key = lookup members key := rfl

theorem iter_obj_eq_nil_iff {members : List (String × Json)} :
    (Dict.ofList members).keys = [] ↔ members = [] := by
  cases members with
  | nil => simp [Dict.ofList, Dict.updateList, Dict.keys, Dict.empty]
  | cons m members =>
    have hmem : m.1 ∈ (Dict.ofList (m :: members)).keys :=
      (Dict.mem_keys_updateList _ _ _).mpr (Or.inr (by simp))
    simp [List.ne_nil_of_mem hmem]

/-- `value is None`, for the result of `get`. -/
def isNone : Option Json → Bool
  | none => true
  | some .null => true
  | some _ => false

end Json

/-- The `json` module, which may give up on deep nesting, and the text of a value in an f-string. -/
structure JsonModule where
  loads : String → Except Exception Json
  str : Json → String

/-! ## Writing texts -/

def unicodeEscape (n : Nat) : List Char :=
  ['\\', 'u', Nat.digitChar (n / 4096 % 16), Nat.digitChar (n / 256 % 16),
    Nat.digitChar (n / 16 % 16), Nat.digitChar (n % 16)]

/-- A character inside a JSON string; beyond ASCII there are escapes only. -/
def escapeChar (c : Char) : List Char :=
  if c = '"' ∨ c = '\\' then ['\\', c]
  else if ' ' ≤ c ∧ c ≤ '~' then [c]
  else if c = '\n' then ['\\', 'n']
  else if c = '\r' then ['\\', 'r']
  else if c = '\t' then ['\\', 't']
  else if c.toNat = 8 then ['\\', 'b']
  else if c.toNat = 12 then ['\\', 'f']
  else if c.toNat < 65536 then unicodeEscape c.toNat
  else unicodeEscape (55296 + (c.toNat - 65536) / 1024) ++
    unicodeEscape (56320 + (c.toNat - 65536) % 1024)

/-- `json.dumps` of a text. -/
def dumpsText (s : String) : String := String.ofList ('"' :: s.toList.flatMap escapeChar ++ ['"'])

/-- `json.dumps` of a list of texts. -/
def dumps (texts : List String) : String :=
  "[" ++ String.intercalate ", " (texts.map dumpsText) ++ "]"

/-- A text that needs no escapes. -/
def PlainText (s : String) : Prop := ∀ c ∈ s.toList, ' ' ≤ c ∧ c ≤ '~' ∧ c ≠ '"' ∧ c ≠ '\\'

theorem toList_dumpsText {s : String} (h : PlainText s) :
    (dumpsText s).toList = '"' :: s.toList ++ ['"'] := by
  have hplain : s.toList.flatMap escapeChar = s.toList := by
    rw [List.flatMap_congr fun c hc => ?_, List.flatMap_singleton']
    obtain ⟨hlo, hhi, hquote, hbackslash⟩ := h c hc
    rw [escapeChar, if_neg (by simp [hquote, hbackslash]), if_pos ⟨hlo, hhi⟩]
  rw [dumpsText, String.toList_ofList, hplain]

def dumpsTail (texts : List String) : List Char :=
  texts.flatMap (fun s => ',' :: ' ' :: (dumpsText s).toList) ++ [']']

theorem toList_dumps_cons (s : String) (texts : List String) :
    (dumps (s :: texts)).toList = '[' :: ((dumpsText s).toList ++ dumpsTail texts) := by
  have hjoin : ∀ s, [',', ' '].intercalate ((s :: texts).map fun s => (dumpsText s).toList) =
      (dumpsText s).toList ++ texts.flatMap fun s => ',' :: ' ' :: (dumpsText s).toList := by
    induction texts with
    | nil => simp
    | cons t texts ih =>
      intro s
      have ht := ih t
      simp only [List.map_cons, List.intercalate_cons_cons, List.flatMap_cons] at ht ⊢
      rw [ht]
      simp
  have hitems : ((s :: texts).map dumpsText).map String.toList =
      (s :: texts).map fun s => (dumpsText s).toList := List.map_map
  rw [dumps, String.toList_append, String.toList_append, String.toList_intercalate, hitems,
    show ", ".toList = [',', ' '] from rfl, hjoin, dumpsTail]
  simp

theorem dumpsTail_injective {texts texts' : List String} (h : ∀ s ∈ texts, PlainText s)
    (h' : ∀ s ∈ texts', PlainText s) (heq : dumpsTail texts = dumpsTail texts') :
    texts = texts' := by
  induction texts generalizing texts' with
  | nil =>
    cases texts' with
    | nil => rfl
    | cons s' texts' => simp [dumpsTail] at heq
  | cons s texts ih =>
    cases texts' with
    | nil => simp [dumpsTail] at heq
    | cons s' texts' =>
      have hquote : ∀ {s : String}, PlainText s → '"' ∉ s.toList := fun hs hmem =>
        (hs _ hmem).2.2.1 rfl
      have hs := h s (by simp)
      have hs' := h' s' (by simp)
      simp only [dumpsTail, List.flatMap_cons, toList_dumpsText hs, toList_dumpsText hs',
        List.cons_append, List.append_assoc, List.cons.injEq, true_and, List.nil_append] at heq
      obtain ⟨hsame, hrest⟩ := append_cons_inj (hquote hs) (hquote hs') heq
      rw [String.toList_inj.mp hsame, ih (fun t ht => h t (List.mem_cons_of_mem _ ht))
        (fun t ht => h' t (List.mem_cons_of_mem _ ht)) hrest]

theorem dumps_injective {texts texts' : List String} (h : ∀ s ∈ texts, PlainText s)
    (h' : ∀ s ∈ texts', PlainText s) (heq : dumps texts = dumps texts') : texts = texts' := by
  have hl := congrArg String.toList heq
  cases texts with
  | nil =>
    cases texts' with
    | nil => rfl
    | cons s' texts' =>
      rw [toList_dumps_cons, toList_dumpsText (h' s' (by simp))] at hl
      simp [dumps] at hl
  | cons s texts =>
    cases texts' with
    | nil =>
      rw [toList_dumps_cons, toList_dumpsText (h s (by simp))] at hl
      simp [dumps] at hl
    | cons s' texts' =>
      rw [toList_dumps_cons, toList_dumps_cons] at hl
      refine dumpsTail_injective h h' ?_
      simpa [dumpsTail] using hl

end Py
