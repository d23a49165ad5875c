import Mathlib.Data.List.Lex
import Mathlib.Data.List.Nodup
import Mathlib.Order.Fin.Basic

/-!
# The protos of a build

The build script collects the `.proto` files below a directory, makes their paths relative to it
and sorts them. A directory is what reading it yields, in the order of the file system; reading
it, an entry of it or the type of an entry can fail. What the code is generated from depends on
which files there are, and neither on the order nor on anything else.
-/

namespace QuizArena.Proto

/-- A file name, by its bytes. -/
abbrev Name := List (Fin 256)

/-- `PathBuf`, by its components. -/
abbrev PathBuf := List Name

mutual

/-- What stands at a name. -/
inductive Node (E : Type) where
  | file
  | directory (listing : Listing E)
  | untold (error : E)

/-- What `read_dir` yields, up to the first error. -/
inductive Listing (E : Type) where
  | done
  | fails (error : E)
  | entry (name : Name) (node : Node E) (rest : Listing E)

end

variable {E : Type}

/-! ## The script -/

/-- The byte of a dot. -/
def dot : Fin 256 := 46

/-- `Path::extension` of a file name: what follows its last dot, unless it starts with that. -/
def extensionOf (name : Name) : Option Name :=
  if name = [dot, dot] then none
  else
    match name.reverse.dropWhile (· ≠ dot) with
    | [] | [_] => none
    | _ :: _ :: _ => some (name.reverse.takeWhile (· ≠ dot)).reverse

/-- `proto`, in bytes. -/
def protoExtension : Name := [112, 114, 111, 116, 111]

/-- Whether the extension of a path is that of a proto. -/
def isProto (path : PathBuf) : Bool := path.getLast?.bind extensionOf = some protoExtension

mutual

/-- The fold of `collect_protos` over what `read_dir` yields. -/
def collectProtos (dir : PathBuf) : Listing E → List PathBuf → Except E (List PathBuf)
  | .done, protos => .ok protos
  | .fails error, _ => .error error
  | .entry name node rest, protos => do
    let protos ← collectEntry (dir ++ [name]) node protos
    collectProtos dir rest protos

/-- One entry of it. -/
def collectEntry (path : PathBuf) : Node E → List PathBuf → Except E (List PathBuf)
  | .untold error, _ => .error error
  | .directory listing, protos => do
    let inner ← collectProtos path listing []
    .ok (protos ++ inner)
  | .file, protos => .ok (if isProto path then protos ++ [path] else protos)

end

/-- `Path::strip_prefix`. -/
def stripPrefix : PathBuf → PathBuf → Option PathBuf
  | [], path => some path
  | _ :: _, [] => none
  | component :: base, component' :: path =>
    if component = component' then stripPrefix base path else none

/-- What can go wrong with the protos. -/
inductive BuildError (E : Type) where
  | io (error : E)
  | outside
  deriving DecidableEq

/-- The order of paths: the first components that differ decide, and of these the first bytes. -/
@[reducible] def pathOrder : LinearOrder PathBuf := List.instLinearOrder

def pathLe (path path' : PathBuf) : Bool :=
  @decide (pathOrder.le path path') (pathOrder.toDecidableLE path path')

/-- The protos that `main` generates code from. -/
def protos (root : PathBuf) (listing : Listing E) : Except (BuildError E) (List PathBuf) := do
  let collected ← (collectProtos root listing []).mapError .io
  let relative ← collected.mapM fun path =>
    match stripPrefix root path with
    | some path => .ok path
    | none => .error .outside
  .ok (relative.mergeSort pathLe)

/-! ## What there is to collect -/

/-- A file of a directory, by its path from there. -/
inductive Contains : Listing E → PathBuf → Prop where
  | file (name : Name) (rest : Listing E) : Contains (.entry name .file rest) [name]
  | inside (name : Name) {listing : Listing E} (rest : Listing E) {path : PathBuf} :
      Contains listing path → Contains (.entry name (.directory listing) rest) (name :: path)
  | later (name : Name) (node : Node E) {rest : Listing E} {path : PathBuf} :
      Contains rest path → Contains (.entry name node rest) path

mutual

/-- The first error that is met. -/
def Listing.firstError : Listing E → Option E
  | .done => none
  | .fails error => some error
  | .entry _ node rest => node.firstError.or rest.firstError

def Node.firstError : Node E → Option E
  | .file => none
  | .directory listing => listing.firstError
  | .untold error => some error

end

mutual

/-- The protos of a directory, by their paths from there. -/
def Listing.found : Listing E → List PathBuf
  | .done | .fails _ => []
  | .entry name node rest => node.found name ++ rest.found

def Node.found (name : Name) : Node E → List PathBuf
  | .file => if isProto [name] then [[name]] else []
  | .directory listing => listing.found.map (name :: ·)
  | .untold _ => []

end

def Listing.names : Listing E → List Name
  | .done | .fails _ => []
  | .entry name _ rest => name :: rest.names

mutual

/-- No directory has two entries of one name. -/
def Listing.Proper : Listing E → Prop
  | .done | .fails _ => True
  | .entry name node rest => name ∉ rest.names ∧ node.Proper ∧ rest.Proper

def Node.Proper : Node E → Prop
  | .file | .untold _ => True
  | .directory listing => listing.Proper

end

/-! ## What is collected -/

theorem isProto_append (dir : PathBuf) (name : Name) (path : PathBuf) :
    isProto (dir ++ name :: path) = isProto (name :: path) := by
  unfold isProto
  rw [List.getLast?_append_of_ne_nil dir (List.cons_ne_nil name path)]

theorem stripPrefix_append (base path : PathBuf) : stripPrefix base (base ++ path) = some path := by
  induction base with
  | nil => rfl
  | cons component base ih =>
    show (if component = component then stripPrefix base (base ++ path) else none) = some path
    rw [if_pos rfl, ih]

mutual

/-- The fold appends what there is, or stops at the first error. -/
theorem collectProtos_eq (dir : PathBuf) : ∀ (listing : Listing E) (protos : List PathBuf),
    collectProtos dir listing protos =
      match listing.firstError with
      | some error => .error error
      | none => .ok (protos ++ listing.found.map (dir ++ ·))
  | .done, protos => by simp [collectProtos, Listing.firstError, Listing.found]
  | .fails error, protos => rfl
  | .entry name node rest, protos => by
    rw [collectProtos, collectEntry_eq (dir ++ [name]) dir name rfl node protos]
    have hfirst : (Listing.entry name node rest).firstError =
        node.firstError.or rest.firstError := rfl
    rw [hfirst]
    cases node.firstError with
    | some error => rfl
    | none =>
      show collectProtos dir rest _ = _
      rw [collectProtos_eq dir rest, Option.none_or, Listing.found, List.map_append,
        List.append_assoc]

theorem collectEntry_eq (path dir : PathBuf) (name : Name) (hpath : path = dir ++ [name]) :
    ∀ (node : Node E) (protos : List PathBuf), collectEntry path node protos =
      match node.firstError with
      | some error => .error error
      | none => .ok (protos ++ (node.found name).map (dir ++ ·))
  | .untold error, protos => rfl
  | .file, protos => by
    subst hpath
    rw [collectEntry, isProto_append dir name []]
    simp only [Node.firstError, Node.found]
    split <;> simp
  | .directory listing, protos => by
    subst hpath
    rw [collectEntry, collectProtos_eq (dir ++ [name]) listing []]
    have hpaths : listing.found.map (dir ++ [name] ++ ·) =
        (listing.found.map (name :: ·)).map (dir ++ ·) := by
      simp [List.map_map, Function.comp_def]
    simp only [Node.firstError, Node.found]
    cases listing.firstError with
    | some error => rfl
    | none =>
      show Except.ok (protos ++ ([] ++ listing.found.map (dir ++ [name] ++ ·))) = _
      rw [List.nil_append, hpaths]

end

theorem contains_entry_iff {name : Name} {node : Node E} {rest : Listing E} {path : PathBuf} :
    Contains (.entry name node rest) path ↔
      (node = .file ∧ path = [name]) ∨
      (∃ listing path', node = .directory listing ∧ path = name :: path' ∧
        Contains listing path') ∨ Contains rest path := by
  constructor
  · intro h
    cases h with
    | file => exact Or.inl ⟨rfl, rfl⟩
    | inside _ _ hinside => exact Or.inr (Or.inl ⟨_, _, rfl, rfl, hinside⟩)
    | later _ _ hlater => exact Or.inr (Or.inr hlater)
  · intro h
    rcases h with ⟨rfl, rfl⟩ | ⟨listing, path', rfl, rfl, hinside⟩ | hlater
    · exact .file name rest
    · exact .inside name rest hinside
    · exact .later name node hlater

/-- A file has the name of an entry first. -/
theorem Contains.head {listing : Listing E} {path : PathBuf} (h : Contains listing path) :
    ∃ name path', path = name :: path' ∧ name ∈ listing.names := by
  induction h with
  | file name rest => exact ⟨name, [], rfl, List.mem_cons_self⟩
  | inside name rest _ _ => exact ⟨name, _, rfl, List.mem_cons_self⟩
  | later _ _ _ ih =>
    obtain ⟨name, path', hpath, hname⟩ := ih
    exact ⟨name, path', hpath, List.mem_cons_of_mem _ hname⟩

/-- What there is to collect are the files with the extension. -/
theorem mem_found_iff : ∀ (listing : Listing E) {path : PathBuf},
    path ∈ listing.found ↔ Contains listing path ∧ isProto path = true
  | .done, path | .fails _, path => by
    constructor
    · intro h
      cases h
    · intro h
      cases h.1
  | .entry name node rest, path => by
    rw [Listing.found, List.mem_append, mem_found_iff rest, contains_entry_iff]
    cases node with
    | untold error =>
      simp [Node.found]
    | file =>
      have hfile : path ∈ Node.found name (.file (E := E)) ↔
          path = [name] ∧ isProto path = true := by
        simp only [Node.found]
        split
        · rename_i hproto
          rw [List.mem_singleton]
          exact ⟨fun h => ⟨h, h ▸ hproto⟩, fun h => h.1⟩
        · rename_i hproto
          exact ⟨fun h => (by cases h), fun h => absurd (h.1 ▸ h.2) hproto⟩
      rw [hfile]
      simp only [true_and, reduceCtorEq, false_and, exists_false, false_or, or_and_right]
    | directory listing =>
      have hinside : path ∈ Node.found name (.directory listing) ↔
          (∃ path', path = name :: path' ∧ Contains listing path') ∧ isProto path = true := by
        simp only [Node.found, List.mem_map]
        constructor
        · intro h
          obtain ⟨path', hpath', rfl⟩ := h
          obtain ⟨hcontains, hproto⟩ := (mem_found_iff listing).mp hpath'
          obtain ⟨name', path'', rfl, _⟩ := hcontains.head
          exact ⟨⟨_, rfl, hcontains⟩, (isProto_append [name] name' path'').trans hproto⟩
        · intro h
          obtain ⟨⟨path', rfl, hcontains⟩, hproto⟩ := h
          obtain ⟨name', path'', rfl, _⟩ := hcontains.head
          have hproto' := (isProto_append [name] name' path'').symm.trans hproto
          exact ⟨_, (mem_found_iff listing).mpr ⟨hcontains, hproto'⟩, rfl⟩
      rw [hinside]
      simp only [reduceCtorEq, false_and, Node.directory.injEq, exists_and_left, false_or,
        or_and_right, ↓existsAndEq, true_and]

/-- Under different names nothing is found twice. -/
theorem nodup_found : ∀ (listing : Listing E), listing.Proper → listing.found.Nodup
  | .done, _ | .fails _, _ => List.nodup_nil
  | .entry name node rest, hproper => by
    obtain ⟨hname, hnode, hrest⟩ := hproper
    rw [Listing.found, List.nodup_append]
    refine ⟨?_, nodup_found rest hrest, ?_⟩
    · cases node with
      | untold error => exact List.nodup_nil
      | file =>
        simp only [Node.found]
        split
        · exact List.pairwise_singleton _ _
        · exact List.nodup_nil
      | directory listing =>
        exact List.Nodup.map (fun _ _ h => (List.cons.inj h).2) (nodup_found listing hnode)
    · rintro path hpath path' hpath' rfl
      obtain ⟨name', rest', rfl, hname'⟩ := ((mem_found_iff rest).mp hpath').1.head
      have hsame : name' = name := by
        cases node with
        | untold error => cases hpath
        | file =>
          simp only [Node.found] at hpath
          split at hpath
          · exact (List.cons.inj (List.mem_singleton.mp hpath)).1
          · cases hpath
        | directory listing =>
          obtain ⟨_, _, h⟩ := List.mem_map.mp hpath
          exact (List.cons.inj h).1.symm
      exact hname (hsame ▸ hname')

/-- What is collected below the root is found to be there. -/
theorem mapM_stripPrefix (root : PathBuf) (paths : List PathBuf) :
    ((paths.map (root ++ ·)).mapM fun path =>
      match stripPrefix root path with
      | some path => Except.ok path
      | none => .error (BuildError.outside (E := E))) = .ok paths := by
  induction paths with
  | nil => rfl
  | cons path paths ih =>
    rw [List.map_cons, List.mapM_cons, stripPrefix_append, ih]
    rfl

theorem protos_eq (root : PathBuf) (listing : Listing E) :
    protos root listing =
      match listing.firstError with
      | some error => .error (.io error)
      | none => .ok (listing.found.mergeSort pathLe) := by
  unfold protos
  rw [collectProtos_eq]
  cases listing.firstError with
  | some error => rfl
  | none =>
    show (do
      let relative ← (listing.found.map (root ++ ·)).mapM _
      Except.ok (relative.mergeSort _)) = _
    rw [mapM_stripPrefix]
    rfl

theorem pairwise_sort (paths : List PathBuf) :
    (paths.mergeSort pathLe).Pairwise pathOrder.le := by
  have hsorted : (paths.mergeSort pathLe).Pairwise fun path path' => pathLe path path' = true := by
    apply List.pairwise_mergeSort
    · intro path path' path''
      simp only [pathLe, decide_eq_true_iff]
      exact pathOrder.le_trans path path' path''
    · intro path path'
      simp only [pathLe, Bool.or_eq_true, decide_eq_true_iff]
      exact pathOrder.le_total path path'
  exact hsorted.imp fun h => of_decide_eq_true h

/-- What the build makes of a directory: the first error there is, or its protos, all of them
    and nothing else, in order. -/
structure Collects (root : PathBuf) (listing : Listing E) : Prop where
  fails : ∀ error, protos root listing = .error error ↔
    ∃ cause, listing.firstError = some cause ∧ error = .io cause
  sorted : ∀ result, protos root listing = .ok result → result.Pairwise pathOrder.le
  all : ∀ result, protos root listing = .ok result →
    ∀ path, path ∈ result ↔ Contains listing path ∧ isProto path = true
  once : listing.Proper → ∀ result, protos root listing = .ok result → result.Nodup

theorem collects (root : PathBuf) (listing : Listing E) : Collects root listing := by
  have hresult : ∀ result, protos root listing = .ok result →
      result = listing.found.mergeSort pathLe := by
    intro result h
    rw [protos_eq] at h
    cases hfirst : listing.firstError with
    | some error =>
      rw [hfirst] at h
      cases h
    | none =>
      rw [hfirst] at h
      exact (Except.ok.inj h).symm
  constructor
  · intro error
    rw [protos_eq]
    cases hfirst : listing.firstError with
    | some cause =>
      simp only [Except.error.injEq, Option.some.injEq, exists_eq_left']
      exact eq_comm
    | none => simp
  · rintro result h
    rw [hresult result h]
    exact pairwise_sort listing.found
  · intro result h path
    rw [hresult result h, (List.mergeSort_perm _ _).mem_iff]
    exact mem_found_iff listing
  · intro hproper result h
    rw [hresult result h]
    exact (List.mergeSort_perm _ _).nodup_iff.mpr (nodup_found listing hproper)

/-- The build depends on nothing but which protos there are: whatever the file system does to the
    order of entries, and wherever the root is, it makes the same of directories with the same
    protos. -/
theorem protos_reproducible (root root' : PathBuf) (listing listing' : Listing E) :
    Collects root listing ∧
    (listing.Proper → listing'.Proper → listing.firstError = none →
      listing'.firstError = none →
      (∀ path, isProto path = true → (Contains listing path ↔ Contains listing' path)) →
      protos root listing = protos root' listing') := by
  refine ⟨collects root listing, fun hproper hproper' hread hread' hsame => ?_⟩
  have hperm : listing.found.Perm listing'.found := by
    rw [List.perm_ext_iff_of_nodup (nodup_found listing hproper) (nodup_found listing' hproper')]
    intro path
    rw [mem_found_iff, mem_found_iff]
    exact and_congr_left (hsame path)
  have hsorted : listing.found.mergeSort pathLe = listing'.found.mergeSort pathLe := by
    apply List.Perm.eq_of_pairwise _ (pairwise_sort _) (pairwise_sort _)
    · exact (List.mergeSort_perm _ _).trans (hperm.trans (List.mergeSort_perm _ _).symm)
    · exact fun path path' _ _ => pathOrder.le_antisymm path path'
  rw [protos_eq, protos_eq, hread, hread', hsorted]

/-- `b.proto` and `a.proto`, as they are read. -/
def unordered : Listing String :=
  .entry (98 :: dot :: protoExtension) .file (.entry (97 :: dot :: protoExtension) .file .done)

/-- The same two in order, after an empty directory and a file without an extension. -/
def ordered : Listing String :=
  .entry [99] (.directory .done) (.entry [100] .file
    (.entry (97 :: dot :: protoExtension) .file (.entry (98 :: dot :: protoExtension) .file .done)))

theorem protos_reproducible_unordered : protos [] unordered = protos [[dot]] ordered := by
  apply (protos_reproducible [] [[dot]] unordered ordered).2
  · simp [unordered, Listing.Proper, Node.Proper, Listing.names]
  · simp [ordered, Listing.Proper, Node.Proper, Listing.names]
  · rfl
  · rfl
  · intro path hproto
    have hnone : ∀ path', ¬ Contains (E := String) .done path' := fun _ h => by cases h
    have hempty : ¬ ∃ listing path', .done = listing ∧ path = [99] :: path' ∧
        Contains (E := String) listing path' := by
      rintro ⟨_, path', rfl, _, h⟩
      exact hnone path' h
    have hplain : path ≠ [[100]] := by
      rintro rfl
      revert hproto
      decide
    simp only [unordered, ordered, contains_entry_iff, hnone, true_and, reduceCtorEq, false_and,
      exists_false, false_or, or_false, and_false, Node.directory.injEq, hempty, hplain]
    exact or_comm

end QuizArena.Proto
