import UnixPrograms.Backuper.Code

/-!
# Names and paths

A file name has no slash, so a path that is joined from names has its names
back.
-/

namespace UnixPrograms
namespace Backuper

open Foundation

def NAME_MAX : Nat := 255

structure FileName where
  bytes : Bytes
  nonempty : bytes ≠ []
  noNul : NoNul bytes
  noSlash : SLASH ∉ bytes
  short : bytes.length ≤ NAME_MAX
  proper : bytes ≠ DOT ∧ bytes ≠ DOTDOT
deriving DecidableEq

def FileName.ofBytes (bytes : Bytes) : Option FileName :=
  if h : bytes ≠ [] ∧ NoNul bytes ∧ SLASH ∉ bytes ∧
      bytes.length ≤ NAME_MAX ∧ bytes ≠ DOT ∧ bytes ≠ DOTDOT then
    some
      { bytes := bytes
        nonempty := h.left
        noNul := h.right.left
        noSlash := h.right.right.left
        short := h.right.right.right.left
        proper := h.right.right.right.right }
  else none

theorem FileName.ofBytes_bytes (name : FileName) :
    FileName.ofBytes name.bytes = some name := by
  rw [FileName.ofBytes, dif_pos ⟨name.nonempty, name.noNul, name.noSlash,
    name.short, name.proper⟩]

theorem makePath_eq (filePath dirPath name : Bytes) :
    makePath filePath dirPath name = dirPath ++ SLASH :: name := by
  rw [makePath]
  split
  case isTrue _ => rfl
  case isFalse h => rw [not_not.mp h]

def join (dir : Bytes) (path : List FileName) : Bytes :=
  path.foldl (fun dir name => dir ++ SLASH :: name.bytes) dir

@[simp] theorem join_nil (dir : Bytes) : join dir [] = dir := rfl

@[simp] theorem join_cons (dir : Bytes) (name : FileName)
    (path : List FileName) :
    join dir (name :: path) = join (dir ++ SLASH :: name.bytes) path := rfl

theorem join_append (dir : Bytes) (path more : List FileName) :
    join dir (path ++ more) = join (join dir path) more := by
  rw [join, List.foldl_append]
  rfl

theorem join_concat (dir : Bytes) (path : List FileName) (name : FileName) :
    join dir (path ++ [name]) = join dir path ++ SLASH :: name.bytes := by
  rw [join_append]
  rfl

theorem FileName.ext_bytes {name name' : FileName}
    (h : name.bytes = name'.bytes) : name = name' := by
  cases name
  cases name'
  cases h
  rfl

theorem join_eq_append (dir : Bytes) (path : List FileName) :
    join dir path = dir ++ join [] path := by
  induction path generalizing dir with
  | nil => exact (List.append_nil dir).symm
  | cons name path ih =>
      rw [join_cons, join_cons, ih, ih ([] ++ _), List.nil_append,
        List.append_assoc]

theorem join_nil_cases (path : List FileName) :
    join [] path = [] ∨ exists rest, join [] path = SLASH :: rest := by
  cases path with
  | nil => exact Or.inl rfl
  | cons name path =>
      right
      rw [join_cons, List.nil_append, join_eq_append]
      exact ⟨_, rfl⟩

theorem takeWhile_name (name : FileName) {rest : Bytes}
    (h : rest = [] ∨ exists more, rest = SLASH :: more) :
    (name.bytes ++ rest).takeWhile (fun b => b ≠ SLASH) = name.bytes := by
  have hname : forall b, b ∈ name.bytes -> b ≠ SLASH := by
    intro b hb heq
    rw [heq] at hb
    exact name.noSlash hb
  rw [List.takeWhile_append_of_pos (by simpa using hname)]
  rcases h with heq | ⟨more, heq⟩
  · rw [heq]
    exact List.append_nil _
  · rw [heq, List.takeWhile_cons, if_neg (by simp), List.append_nil]

theorem join_cons_eq (dir : Bytes) (name : FileName) (path : List FileName) :
    join dir (name :: path) = dir ++ SLASH :: (name.bytes ++ join [] path) := by
  rw [join_cons, join_eq_append, List.append_assoc]
  rfl

theorem join_injective {dir : Bytes} {path path' : List FileName}
    (h : join dir path = join dir path') : path = path' := by
  induction path generalizing dir path' with
  | nil =>
      cases path' with
      | nil => rfl
      | cons name path' =>
          rw [join_nil, join_cons_eq] at h
          cases List.self_eq_append_right.mp h
  | cons name path ih =>
      cases path' with
      | nil =>
          rw [join_nil, join_cons_eq] at h
          cases List.self_eq_append_right.mp h.symm
      | cons name' path' =>
          rw [join_cons_eq, join_cons_eq] at h
          injection List.append_cancel_left h with _ hrest
          have hname : name = name' := by
            apply FileName.ext_bytes
            have htake := congrArg (List.takeWhile (fun b => b ≠ SLASH)) hrest
            rw [takeWhile_name name (join_nil_cases path),
              takeWhile_name name' (join_nil_cases path')] at htake
            exact htake
          rw [hname] at hrest
          rw [hname, ih (List.append_cancel_left hrest)]

end Backuper
end UnixPrograms
