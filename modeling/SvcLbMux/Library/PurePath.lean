import SvcLbMux.Library.Text

namespace Py

/-- A `PurePosixPath`. The root is empty, one slash or two. -/
structure PurePath where
  root : String
  parts : List String
deriving DecidableEq

def pathRoot : List Char → String
  | '/' :: '/' :: '/' :: _ => "/"
  | '/' :: '/' :: _ => "//"
  | '/' :: _ => "/"
  | _ => ""

/-- Empty components and `.` are no parts of a path; `..` is one. -/
def IsPart (component : String) : Prop := component ≠ "" ∧ component ≠ "."

instance : DecidablePred IsPart := fun _ => inferInstanceAs (Decidable (_ ∧ _))

namespace PurePath

def ofText (text : String) : PurePath :=
  ⟨pathRoot text.toList, (split text '/').filter IsPart⟩

/-- `path / text`. -/
def join (path : PurePath) (text : String) : PurePath :=
  if pathRoot text.toList = "" then ⟨path.root, path.parts ++ (ofText text).parts⟩ else ofText text

end PurePath

theorem pathRoot_eq_empty {text : String} (h : "" ∉ split text '/') :
    pathRoot text.toList = "" := by
  have hhead : ∀ cs, text.toList ≠ '/' :: cs := by
    intro cs hcs
    apply h
    rw [split, hcs, ← List.nil_append ('/' :: cs), List.splitOn_append_cons_self]
    simp
  unfold pathRoot
  split
  · rename_i hcs
    exact absurd hcs (hhead _)
  · rename_i hcs
    exact absurd hcs (hhead _)
  · rename_i hcs
    exact absurd hcs (hhead _)
  · rfl

namespace PurePath

theorem join_of_isPart (path : PurePath) {text : String} (h : ∀ part ∈ split text '/', IsPart part) :
    path.join text = ⟨path.root, path.parts ++ split text '/'⟩ := by
  have hroot := pathRoot_eq_empty fun hempty => (h "" hempty).1 rfl
  have hparts : (split text '/').filter IsPart = split text '/' :=
    List.filter_eq_self.mpr fun part hpart => decide_eq_true (h part hpart)
  rw [join, if_pos hroot, ofText, hparts]

example : (ofText "/tmp/cache").join "./prod//list" = (ofText "/tmp/cache").join "prod/list" := by
  decide +kernel

end PurePath

end Py
