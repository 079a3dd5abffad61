import UnixPrograms.Backuper.Names

/-!
# Trees of regular files and directories

A directory is the row of its entries.  The files and the directories of a
tree come with their paths, and in a tree whose directories have no name twice
a path leads to one of them.
-/

namespace UnixPrograms
namespace Backuper

open Foundation

inductive Listing where
  | nil
  | file (name : FileName) (content : Bytes) (rest : Listing)
  | dir (name : FileName) (inner : Listing) (rest : Listing)
deriving DecidableEq

inductive Entry where
  | dot
  | dotdot
  | file (name : FileName) (content : Bytes)
  | dir (name : FileName) (inner : Listing)
deriving DecidableEq

def Entry.dirent : Entry -> Dirent
  | dot => { name := DOT, type := DT_DIR }
  | dotdot => { name := DOTDOT, type := DT_DIR }
  | file name _ => { name := name.bytes, type := DT_REG }
  | dir name _ => { name := name.bytes, type := DT_DIR }

namespace Listing

def names : Listing -> List FileName
  | nil => []
  | file name _ rest => name :: rest.names
  | dir name _ rest => name :: rest.names

def Distinct : Listing -> Prop
  | nil => True
  | file name _ rest => name ∉ rest.names ∧ rest.Distinct
  | dir name inner rest =>
      name ∉ rest.names ∧ inner.Distinct ∧ rest.Distinct

def entries : Listing -> List Entry
  | nil => []
  | file name content rest => Entry.file name content :: rest.entries
  | dir name inner rest => Entry.dir name inner :: rest.entries

/-- All that `readdir` delivers, in one order. -/
def listed (listing : Listing) : List Entry :=
  Entry.dot :: Entry.dotdot :: listing.entries

def files : Listing -> List (FileName × Bytes)
  | nil => []
  | file name content rest => (name, content) :: rest.files
  | dir _ _ rest => rest.files

def inside : Listing -> List (List FileName × Listing)
  | nil => []
  | file _ _ rest => rest.inside
  | dir name inner rest =>
      ([name], inner) ::
        (inner.inside.map (fun d => (name :: d.1, d.2)) ++ rest.inside)

def directories (listing : Listing) : List (List FileName × Listing) :=
  ([], listing) :: listing.inside

end Listing

inductive Node where
  | directory (listing : Listing)
  | regular (content : Bytes)
deriving DecidableEq

namespace Listing

def lookup : Listing -> List FileName -> Option Node
  | listing, [] => some (Node.directory listing)
  | nil, _ :: _ => none
  | file name content rest, first :: path =>
      if name = first then
        (if path = [] then some (Node.regular content) else none)
      else rest.lookup (first :: path)
  | dir name inner rest, first :: path =>
      if name = first then inner.lookup path else rest.lookup (first :: path)

theorem lookup_nil (listing : Listing) :
    listing.lookup [] = some (Node.directory listing) := by
  cases listing <;> rfl

theorem lookup_append {listing inner : Listing} {path : List FileName}
    (h : listing.lookup path = some (Node.directory inner))
    (more : List FileName) : listing.lookup (path ++ more) = inner.lookup more := by
  induction listing generalizing path with
  | nil =>
      cases path with
      | nil =>
          cases h
          rfl
      | cons first path => cases h
  | file name content rest ih =>
      cases path with
      | nil =>
          cases h
          rfl
      | cons first path =>
          rw [lookup] at h
          rw [List.cons_append, lookup]
          split at h
          case isTrue _ =>
            split at h
            case isTrue _ => cases h
            case isFalse _ => cases h
          case isFalse hne =>
            rw [if_neg hne]
            exact ih h
  | dir name sub rest ihsub ihrest =>
      cases path with
      | nil =>
          cases h
          rfl
      | cons first path =>
          rw [lookup] at h
          rw [List.cons_append, lookup]
          split at h
          case isTrue heq =>
            rw [if_pos heq]
            exact ihsub h
          case isFalse hne =>
            rw [if_neg hne]
            exact ihrest h

theorem inside_names {listing : Listing} {d : List FileName × Listing}
    (h : d ∈ listing.inside) :
    exists first path, d.1 = first :: path ∧ first ∈ listing.names := by
  induction listing with
  | nil => cases h
  | file name content rest ih =>
      rcases ih h with ⟨first, path, heq, hmem⟩
      exact ⟨first, path, heq, List.mem_cons_of_mem name hmem⟩
  | dir name inner rest _ ih =>
      rcases List.mem_cons.mp h with heq | hmem
      · rw [heq]
        exact ⟨name, [], rfl, List.mem_cons_self⟩
      · rcases List.mem_append.mp hmem with hinner | hrest
        · rcases List.mem_map.mp hinner with ⟨d', _, heq⟩
          rw [← heq]
          exact ⟨name, d'.1, rfl, List.mem_cons_self⟩
        · rcases ih hrest with ⟨first, path, heq, hmem⟩
          exact ⟨first, path, heq, List.mem_cons_of_mem name hmem⟩

theorem lookup_inside {listing : Listing} (hdistinct : listing.Distinct)
    {d : List FileName × Listing} (h : d ∈ listing.inside) :
    listing.lookup d.1 = some (Node.directory d.2) ∧ d.2.Distinct := by
  induction listing generalizing d with
  | nil => cases h
  | file name content rest ih =>
      rcases @inside_names rest d h with ⟨first, path, heq, hmem⟩
      have hne : name ≠ first := fun heq' => hdistinct.left (heq' ▸ hmem)
      have hrest := ih hdistinct.right h
      rw [heq] at hrest ⊢
      rw [lookup, if_neg hne]
      exact hrest
  | dir name inner rest ihinner ihrest =>
      rcases List.mem_cons.mp h with heq | hmem
      · rw [heq, lookup, if_pos rfl, lookup_nil]
        exact ⟨rfl, hdistinct.right.left⟩
      · rcases List.mem_append.mp hmem with hinner | hrest
        · rcases List.mem_map.mp hinner with ⟨d', hd', heq⟩
          rw [← heq, lookup, if_pos rfl]
          exact ihinner hdistinct.right.left hd'
        · rcases inside_names hrest with ⟨first, path, heq, hin⟩
          have hne : name ≠ first := fun heq' => hdistinct.left (heq' ▸ hin)
          have hlook := ihrest hdistinct.right.right hrest
          rw [heq] at hlook ⊢
          rw [lookup, if_neg hne]
          exact hlook

theorem lookup_directory {listing : Listing} (hdistinct : listing.Distinct)
    {d : List FileName × Listing} (h : d ∈ listing.directories) :
    listing.lookup d.1 = some (Node.directory d.2) ∧ d.2.Distinct := by
  rcases List.mem_cons.mp h with heq | hmem
  · rw [heq, lookup_nil]
    exact ⟨rfl, hdistinct⟩
  · exact lookup_inside hdistinct hmem

theorem files_names {listing : Listing} {f : FileName × Bytes}
    (h : f ∈ listing.files) : f.1 ∈ listing.names := by
  induction listing with
  | nil => cases h
  | file name content rest ih =>
      rcases List.mem_cons.mp h with heq | hmem
      · rw [heq]
        exact List.mem_cons_self
      · exact List.mem_cons_of_mem name (ih hmem)
  | dir name inner rest _ ih => exact List.mem_cons_of_mem name (ih h)

theorem lookup_own_file {listing : Listing} (hdistinct : listing.Distinct)
    {f : FileName × Bytes} (h : f ∈ listing.files) :
    listing.lookup [f.1] = some (Node.regular f.2) := by
  induction listing with
  | nil => cases h
  | file name content rest ih =>
      rcases List.mem_cons.mp h with heq | hmem
      · rw [heq, lookup, if_pos rfl, if_pos rfl]
      · have hne : name ≠ f.1 :=
          fun heq => hdistinct.left (heq ▸ files_names hmem)
        rw [lookup, if_neg hne]
        exact ih hdistinct.right hmem
  | dir name inner rest _ ih =>
      have hne : name ≠ f.1 := fun heq => hdistinct.left (heq ▸ files_names h)
      rw [lookup, if_neg hne]
      exact ih hdistinct.right.right h

theorem lookup_file {listing : Listing} (hdistinct : listing.Distinct)
    {d : List FileName × Listing} (h : d ∈ listing.directories)
    {f : FileName × Bytes} (hf : f ∈ d.2.files) :
    listing.lookup (d.1 ++ [f.1]) = some (Node.regular f.2) := by
  have hdir := lookup_directory hdistinct h
  rw [lookup_append hdir.left]
  exact lookup_own_file hdir.right hf

theorem inside_trans {listing : Listing} {d d' : List FileName × Listing}
    (h : d ∈ listing.inside) (h' : d' ∈ d.2.directories) :
    (d.1 ++ d'.1, d'.2) ∈ listing.inside := by
  induction listing generalizing d d' with
  | nil => cases h
  | file name content rest ih => exact ih h h'
  | dir name inner rest ihinner ihrest =>
      rcases List.mem_cons.mp h with heq | hmem
      · rw [heq] at h' ⊢
        rcases List.mem_cons.mp h' with heq' | hinner
        · rw [heq']
          exact List.mem_cons_self
        · apply List.mem_cons_of_mem
          apply List.mem_append_left
          exact List.mem_map_of_mem hinner
      · apply List.mem_cons_of_mem
        rcases List.mem_append.mp hmem with hinner | hrest
        · rcases List.mem_map.mp hinner with ⟨e, he, heq⟩
          rw [← heq] at h' ⊢
          apply List.mem_append_left
          exact List.mem_map.mpr ⟨(e.1 ++ d'.1, d'.2), ihinner he h', rfl⟩
        · exact List.mem_append_right _ (ihrest hrest h')

theorem directories_trans {listing : Listing}
    {d d' : List FileName × Listing} (h : d ∈ listing.directories)
    (h' : d' ∈ d.2.directories) :
    (d.1 ++ d'.1, d'.2) ∈ listing.directories := by
  rcases List.mem_cons.mp h with heq | hmem
  · rw [heq] at h' ⊢
    exact h'
  · exact List.mem_cons_of_mem _ (inside_trans hmem h')

theorem entry_directory {listing : Listing} {name : FileName}
    {inner : Listing} (h : Entry.dir name inner ∈ listing.entries) :
    ([name], inner) ∈ listing.directories := by
  apply List.mem_cons_of_mem
  induction listing with
  | nil => cases h
  | file name' content rest ih =>
      rcases List.mem_cons.mp h with heq | hmem
      · cases heq
      · exact ih hmem
  | dir name' inner' rest _ ih =>
      rcases List.mem_cons.mp h with heq | hmem
      · cases heq
        exact List.mem_cons_self
      · exact List.mem_cons_of_mem _ (List.mem_append_right _ (ih hmem))

theorem entry_file {listing : Listing} {name : FileName} {content : Bytes}
    (h : Entry.file name content ∈ listing.entries) :
    (name, content) ∈ listing.files := by
  induction listing with
  | nil => cases h
  | file name' content' rest ih =>
      rcases List.mem_cons.mp h with heq | hmem
      · cases heq
        exact List.mem_cons_self
      · exact List.mem_cons_of_mem _ (ih hmem)
  | dir name' inner' rest _ ih =>
      rcases List.mem_cons.mp h with heq | hmem
      · cases heq
      · exact ih hmem

end Listing

end Backuper
end UnixPrograms
