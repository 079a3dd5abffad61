import UnixPrograms.Backuper.Kinds

/-!
# Trees with files of every kind

What there is below the root of a tree, and what `readdir` delivers of each of
its directories.
-/

namespace UnixPrograms
namespace Backuper
namespace Kinds

open Foundation

inductive Listing where
  | nil
  | leaf (name : FileName) (kind : Leaf) (rest : Listing)
  | dir (name : FileName) (inner : Listing) (rest : Listing)
deriving DecidableEq

inductive Entry where
  | dot
  | dotdot
  | leaf (name : FileName) (kind : Leaf)
  | dir (name : FileName) (inner : Listing)
deriving DecidableEq

def Entry.dirent : Entry -> Dirent
  | dot => { name := DOT, type := DT_DIR }
  | dotdot => { name := DOTDOT, type := DT_DIR }
  | leaf name kind => { name := name.bytes, type := kind.type }
  | dir name _ => { name := name.bytes, type := DT_DIR }

namespace Listing

def names : Listing -> List FileName
  | nil => []
  | leaf name _ rest => name :: rest.names
  | dir name _ rest => name :: rest.names

def Distinct : Listing -> Prop
  | nil => True
  | leaf name _ rest => name ∉ rest.names ∧ rest.Distinct
  | dir name inner rest =>
      name ∉ rest.names ∧ inner.Distinct ∧ rest.Distinct

def entries : Listing -> List Entry
  | nil => []
  | leaf name kind rest => Entry.leaf name kind :: rest.entries
  | dir name inner rest => Entry.dir name inner :: rest.entries

def listed (listing : Listing) : List Entry :=
  Entry.dot :: Entry.dotdot :: listing.entries

def inside : Listing -> List (List FileName × Listing)
  | nil => []
  | leaf _ _ rest => rest.inside
  | dir name inner rest =>
      ([name], inner) ::
        (inner.inside.map (fun d => (name :: d.1, d.2)) ++ rest.inside)

def directories (listing : Listing) : List (List FileName × Listing) :=
  ([], listing) :: listing.inside

def places : Listing -> List Place
  | nil => []
  | leaf name kind rest => ([name], Thing.leaf kind) :: rest.places
  | dir name inner rest =>
      ([name], Thing.directory) ::
        (inner.places.map (fun p => (name :: p.1, p.2)) ++ rest.places)

/-!
## Places of a tree
-/

theorem places_path {listing : Listing} {p : Place} (h : p ∈ listing.places) :
    exists first path, p.1 = first :: path ∧ first ∈ listing.names := by
  induction listing with
  | nil => cases h
  | leaf name kind rest ih =>
      rcases List.mem_cons.mp h with heq | hmem
      · rw [heq]
        exact ⟨name, [], rfl, List.mem_cons_self⟩
      · rcases ih hmem with ⟨first, path, heq, hin⟩
        exact ⟨first, path, heq, List.mem_cons_of_mem name hin⟩
  | dir name inner rest _ ih =>
      rcases List.mem_cons.mp h with heq | hmem
      · rw [heq]
        exact ⟨name, [], rfl, List.mem_cons_self⟩
      · rcases List.mem_append.mp hmem with hinner | hrest
        · rcases List.mem_map.mp hinner with ⟨p', _, heq⟩
          rw [← heq]
          exact ⟨name, p'.1, rfl, List.mem_cons_self⟩
        · rcases ih hrest with ⟨first, path, heq, hin⟩
          exact ⟨first, path, heq, List.mem_cons_of_mem name hin⟩

theorem place_ne_nil {listing : Listing} {p : Place}
    (h : p ∈ listing.places) : p.1 ≠ [] := by
  rcases places_path h with ⟨first, path, heq, _⟩
  rw [heq]
  exact List.cons_ne_nil first path

def find : Listing -> List FileName -> Option Thing
  | _, [] => none
  | nil, _ :: _ => none
  | leaf name kind rest, first :: path =>
      if name = first then
        (if path = [] then some (Thing.leaf kind) else none)
      else rest.find (first :: path)
  | dir name inner rest, first :: path =>
      if name = first then
        (if path = [] then some Thing.directory else inner.find path)
      else rest.find (first :: path)

theorem find_of_mem {listing : Listing} (hdistinct : listing.Distinct)
    {p : Place} (h : p ∈ listing.places) :
    listing.find p.1 = some p.2 := by
  induction listing generalizing p with
  | nil => cases h
  | leaf name kind rest ih =>
      rcases List.mem_cons.mp h with heq | hmem
      · rw [heq, find, if_pos rfl, if_pos rfl]
      · have hfind := ih hdistinct.right hmem
        rcases places_path hmem with ⟨first, path, heq, hin⟩
        have hne : name ≠ first := fun hsame => hdistinct.left (hsame ▸ hin)
        rw [heq] at hfind ⊢
        rw [find, if_neg hne]
        exact hfind
  | dir name inner rest ihinner ihrest =>
      rcases List.mem_cons.mp h with heq | hmem
      · rw [heq, find, if_pos rfl, if_pos rfl]
      · rcases List.mem_append.mp hmem with hinner | hrest
        · rcases List.mem_map.mp hinner with ⟨p', hp', heq⟩
          rw [← heq, find, if_pos rfl, if_neg (place_ne_nil hp')]
          exact ihinner hdistinct.right.left hp'
        · have hfind := ihrest hdistinct.right.right hrest
          rcases places_path hrest with ⟨first, path, heq, hin⟩
          have hne : name ≠ first := fun hsame => hdistinct.left (hsame ▸ hin)
          rw [heq] at hfind ⊢
          rw [find, if_neg hne]
          exact hfind

theorem places_functional {listing : Listing} (hdistinct : listing.Distinct) :
    Plan.Functional listing.places := by
  intro path v v' hv hv'
  have hfind := find_of_mem hdistinct hv
  rw [find_of_mem hdistinct hv'] at hfind
  injection hfind with hfind
  exact hfind.symm

theorem place_of_leaf {listing : Listing} {name : FileName} {kind : Leaf}
    (h : Entry.leaf name kind ∈ listing.entries) :
    ([name], Thing.leaf kind) ∈ listing.places := by
  induction listing with
  | nil => cases h
  | leaf name' kind' rest ih =>
      rcases List.mem_cons.mp h with heq | hmem
      · cases heq
        exact List.mem_cons_self
      · exact List.mem_cons_of_mem _ (ih hmem)
  | dir name' inner' rest _ ih =>
      rcases List.mem_cons.mp h with heq | hmem
      · cases heq
      · exact List.mem_cons_of_mem _ (List.mem_append_right _ (ih hmem))

theorem inside_of_dir {listing : Listing} {name : FileName} {inner : Listing}
    (h : Entry.dir name inner ∈ listing.entries) :
    ([name], inner) ∈ listing.inside := by
  induction listing with
  | nil => cases h
  | leaf name' kind' rest ih =>
      rcases List.mem_cons.mp h with heq | hmem
      · cases heq
      · exact ih hmem
  | dir name' inner' rest _ ih =>
      rcases List.mem_cons.mp h with heq | hmem
      · cases heq
        exact List.mem_cons_self
      · exact List.mem_cons_of_mem _ (List.mem_append_right _ (ih hmem))

theorem inside_trans {listing : Listing} {d d' : List FileName × Listing}
    (h : d ∈ listing.inside) (h' : d' ∈ d.2.directories) :
    (d.1 ++ d'.1, d'.2) ∈ listing.inside := by
  induction listing generalizing d d' with
  | nil => cases h
  | leaf name kind rest ih => exact ih h h'
  | dir name inner rest ihinner ihrest =>
      rcases List.mem_cons.mp h with heq | hmem
      · rw [heq] at h' ⊢
        rcases List.mem_cons.mp h' with heq' | hinner
        · rw [heq']
          exact List.mem_cons_self
        · apply List.mem_cons_of_mem
          apply List.mem_append_left
          exact List.mem_map_of_mem hinner
      · apply List.mem_cons_of_mem
        rcases List.mem_append.mp hmem with hinner | hrest
        · rcases List.mem_map.mp hinner with ⟨e, he, heq⟩
          rw [← heq] at h' ⊢
          apply List.mem_append_left
          exact List.mem_map.mpr ⟨(e.1 ++ d'.1, d'.2), ihinner he h', rfl⟩
        · exact List.mem_append_right _ (ihrest hrest h')

theorem places_inside {listing : Listing} {d : List FileName × Listing}
    (h : d ∈ listing.inside) :
    (d.1, Thing.directory) ∈ listing.places ∧
      forall p, p ∈ d.2.places -> (d.1 ++ p.1, p.2) ∈ listing.places := by
  induction listing generalizing d with
  | nil => cases h
  | leaf name kind rest ih =>
      rcases ih h with ⟨hdir, hplaces⟩
      exact ⟨List.mem_cons_of_mem _ hdir,
        fun p hp => List.mem_cons_of_mem _ (hplaces p hp)⟩
  | dir name inner rest ihinner ihrest =>
      rcases List.mem_cons.mp h with heq | hmem
      · rw [heq]
        refine ⟨List.mem_cons_self, fun p hp => ?_⟩
        apply List.mem_cons_of_mem
        apply List.mem_append_left
        exact List.mem_map.mpr ⟨p, hp, rfl⟩
      · rcases List.mem_append.mp hmem with hinner | hrest
        · rcases List.mem_map.mp hinner with ⟨d', hd', heq⟩
          rcases ihinner hd' with ⟨hdir, hplaces⟩
          rw [← heq]
          constructor
          · apply List.mem_cons_of_mem
            apply List.mem_append_left
            exact List.mem_map.mpr ⟨_, hdir, rfl⟩
          · intro p hp
            apply List.mem_cons_of_mem
            apply List.mem_append_left
            exact List.mem_map.mpr ⟨_, hplaces p hp, rfl⟩
        · rcases ihrest hrest with ⟨hdir, hplaces⟩
          exact ⟨List.mem_cons_of_mem _ (List.mem_append_right _ hdir),
            fun p hp =>
              List.mem_cons_of_mem _ (List.mem_append_right _ (hplaces p hp))⟩

theorem place_cases {listing : Listing} {p : Place}
    (h : p ∈ listing.places) :
    (exists inner, p.2 = Thing.directory ∧ (p.1, inner) ∈ listing.inside) ∨
      exists d name kind, d ∈ listing.directories ∧
        Entry.leaf name kind ∈ d.2.entries ∧ p.1 = d.1 ++ [name] ∧
        p.2 = Thing.leaf kind := by
  induction listing generalizing p with
  | nil => cases h
  | leaf name kind rest ih =>
      rcases List.mem_cons.mp h with heq | hmem
      · rw [heq]
        exact Or.inr ⟨_, name, kind, List.mem_cons_self, List.mem_cons_self,
          rfl, rfl⟩
      · rcases ih hmem with ⟨inner, hthing, hin⟩ |
          ⟨d, name', kind', hd, hentry, hpath, hthing⟩
        · exact Or.inl ⟨inner, hthing, hin⟩
        · right
          rcases List.mem_cons.mp hd with heq | hin
          · rw [heq] at hentry hpath
            exact ⟨_, name', kind', List.mem_cons_self,
              List.mem_cons_of_mem _ hentry, hpath, hthing⟩
          · exact ⟨d, name', kind', List.mem_cons_of_mem _ hin, hentry, hpath,
              hthing⟩
  | dir name inner rest ihinner ihrest =>
      rcases List.mem_cons.mp h with heq | hmem
      · rw [heq]
        exact Or.inl ⟨inner, rfl, List.mem_cons_self⟩
      · rcases List.mem_append.mp hmem with hinner | hrest
        · rcases List.mem_map.mp hinner with ⟨p', hp', heq⟩
          rw [← heq]
          rcases ihinner hp' with ⟨inner', hthing, hin⟩ |
            ⟨d, name', kind', hd, hentry, hpath, hthing⟩
          · left
            refine ⟨inner', hthing, List.mem_cons_of_mem _ ?_⟩
            apply List.mem_append_left
            exact List.mem_map.mpr ⟨_, hin, rfl⟩
          · right
            refine ⟨(name :: d.1, d.2), name', kind', ?_, hentry, ?_, hthing⟩
            · apply List.mem_cons_of_mem
              exact @inside_trans (dir name inner rest) ([name], inner) d
                List.mem_cons_self hd
            · rw [hpath]
              rfl
        · rcases ihrest hrest with ⟨inner', hthing, hin⟩ |
            ⟨d, name', kind', hd, hentry, hpath, hthing⟩
          · exact Or.inl ⟨inner', hthing,
              List.mem_cons_of_mem _ (List.mem_append_right _ hin)⟩
          · right
            rcases List.mem_cons.mp hd with heq | hin
            · rw [heq] at hentry hpath
              exact ⟨_, name', kind', List.mem_cons_self,
                List.mem_cons_of_mem _ hentry, hpath, hthing⟩
            · exact ⟨d, name', kind',
                List.mem_cons_of_mem _
                  (List.mem_cons_of_mem _ (List.mem_append_right _ hin)),
                hentry, hpath, hthing⟩

/-!
## The entries of a directory by its path
-/

/-- The entry that a place is in the directory at a path. -/
def childOf (path : List FileName) (p : Place) : Option Dirent :=
  match p.1.getLast? with
  | none => none
  | some name =>
      if p.1.dropLast = path then
        some { name := name.bytes, type := p.2.type }
      else none

theorem childOf_cons_nil {name : FileName} {p : Place} (hp : p.1 ≠ []) :
    childOf [] (name :: p.1, p.2) = none := by
  unfold childOf
  rw [List.dropLast_cons_of_ne_nil hp]
  split
  · rfl
  · rw [if_neg (List.cons_ne_nil _ _)]

theorem childOf_cons_cons {name first : FileName} {path : List FileName}
    {p : Place} (hp : p.1 ≠ []) :
    childOf (first :: path) (name :: p.1, p.2) =
      if name = first then childOf path p else none := by
  unfold childOf
  rw [List.getLast?_cons_of_ne_nil hp, List.dropLast_cons_of_ne_nil hp]
  by_cases hname : name = first
  · subst hname
    simp
  · have hne : name :: p.1.dropLast ≠ first :: path := by
      intro heq
      injection heq with heq _
      exact hname heq
    rw [if_neg hname]
    split
    · rfl
    · rw [if_neg hne]

theorem filterMap_childOf_nil (listing : Listing) :
    listing.places.filterMap (childOf []) = listing.entries.map Entry.dirent := by
  induction listing with
  | nil => rfl
  | leaf name kind rest ih =>
      rw [places, entries, List.map_cons, ← ih]
      rfl
  | dir name inner rest _ ih =>
      have hinner : (inner.places.map (fun p => (name :: p.1, p.2))).filterMap
          (childOf []) = [] := by
        rw [List.filterMap_eq_nil_iff]
        intro p hp
        rcases List.mem_map.mp hp with ⟨p', hp', heq⟩
        rw [← heq]
        exact childOf_cons_nil (place_ne_nil hp')
      rw [places, entries, List.map_cons, ← ih, List.filterMap_cons,
        List.filterMap_append, hinner]
      rfl

theorem filterMap_childOf_absent {listing : Listing} {first : FileName}
    {path : List FileName} (h : first ∉ listing.names) :
    listing.places.filterMap (childOf (first :: path)) = [] := by
  rw [List.filterMap_eq_nil_iff]
  intro p hp
  rcases places_path hp with ⟨name, more, heq, hin⟩
  have hne : name ≠ first := fun hsame => h (hsame ▸ hin)
  unfold childOf
  split
  · rfl
  · rw [if_neg]
    rw [heq]
    cases more with
    | nil => simp
    | cons next more =>
        intro hpath
        injection hpath with hname _
        exact hne hname

theorem filterMap_childOf_below {listing : Listing} {name : FileName}
    {path : List FileName} :
    (listing.places.map (fun p => (name :: p.1, p.2))).filterMap
        (childOf (name :: path)) =
      listing.places.filterMap (childOf path) := by
  rw [List.filterMap_map]
  apply List.filterMap_congr
  intro p hp
  change childOf (name :: path) (name :: p.1, p.2) = childOf path p
  rw [childOf_cons_cons (place_ne_nil hp), if_pos rfl]

theorem filterMap_childOf_beside {listing : Listing} {name first : FileName}
    {path : List FileName} (hne : name ≠ first) :
    (listing.places.map (fun p => (name :: p.1, p.2))).filterMap
        (childOf (first :: path)) = [] := by
  rw [List.filterMap_map, List.filterMap_eq_nil_iff]
  intro p hp
  change childOf (first :: path) (name :: p.1, p.2) = none
  rw [childOf_cons_cons (place_ne_nil hp), if_neg hne]

theorem childOf_single {name first : FileName} {path : List FileName}
    {thing : Thing} : childOf (first :: path) ([name], thing) = none := by
  simp [childOf]

theorem inside_path {listing : Listing} {d : List FileName × Listing}
    (h : d ∈ listing.inside) :
    exists first path, d.1 = first :: path ∧ first ∈ listing.names := by
  rcases places_path (places_inside h).left with ⟨first, path, heq, hin⟩
  exact ⟨first, path, heq, hin⟩

theorem filterMap_childOf {listing : Listing} (hdistinct : listing.Distinct)
    {d : List FileName × Listing} (hd : d ∈ listing.directories) :
    listing.places.filterMap (childOf d.1) = d.2.entries.map Entry.dirent := by
  rcases List.mem_cons.mp hd with heq | hin
  · rw [heq]
    exact filterMap_childOf_nil listing
  · clear hd
    induction listing generalizing d with
    | nil => cases hin
    | leaf name kind rest ih =>
        have hrest := ih hdistinct.right hin
        rcases inside_path hin with ⟨first, path, heq, _⟩
        rw [heq] at hrest ⊢
        rw [places, List.filterMap_cons, childOf_single]
        exact hrest
    | dir name inner rest ihinner ihrest =>
        rcases List.mem_cons.mp hin with heq | hmem
        · rw [heq, places, List.filterMap_cons, childOf_single,
            List.filterMap_append, filterMap_childOf_below,
            filterMap_childOf_absent hdistinct.left, List.append_nil]
          exact filterMap_childOf_nil inner
        · rcases List.mem_append.mp hmem with hinner | hrest
          · rcases List.mem_map.mp hinner with ⟨d', hd', heq⟩
            rw [← heq, places, List.filterMap_cons, childOf_single,
              List.filterMap_append, filterMap_childOf_below,
              filterMap_childOf_absent hdistinct.left, List.append_nil]
            exact ihinner hdistinct.right.left hd'
          · have hfound := ihrest hdistinct.right.right hrest
            rcases inside_path hrest with ⟨first, path, heq, hname⟩
            have hne : name ≠ first :=
              fun hsame => hdistinct.left (hsame ▸ hname)
            rw [heq] at hfound ⊢
            rw [places, List.filterMap_cons, childOf_single,
              List.filterMap_append, filterMap_childOf_beside hne]
            exact hfound

end Listing

theorem Setting.direntsOf_places (setting : Setting) {listing : Listing}
    (hdistinct : listing.Distinct) {d : List FileName × Listing}
    (hd : d ∈ listing.directories) :
    setting.direntsOf listing.places (join setting.srcPath d.1) =
      d.2.listed.map Entry.dirent := by
  have hentries : setting.direntAt (join setting.srcPath d.1) =
      Listing.childOf d.1 := by
    funext p
    unfold Setting.direntAt Listing.childOf
    cases p.1.getLast? with
    | none => rfl
    | some name =>
        simp only
        by_cases hpath : p.1.dropLast = d.1
        · rw [if_pos hpath, if_pos (congrArg _ hpath)]
        · rw [if_neg hpath, if_neg (fun heq => hpath (join_injective heq))]
  rw [direntsOf, hentries, Listing.filterMap_childOf hdistinct hd]
  rfl

end Kinds
end Backuper
end UnixPrograms
