import Mathlib.Data.List.Infix
import TuffSafety.Command
import TuffSafety.Proofs.Positions

/-!
# Where the settings of a file are looked for

The settings of a file are those of the nearest directory at or above its own that holds usable ones.
An absolute path leads the search up to the root. The search for a relative path goes up through the
names that are written and so ends at the current directory. Both are described here as the nearest
settings between a top directory and the directory of the file, and from that follows exactly when two
spellings of one file are given different settings.
-/
namespace TuffSafety

/-! ### Names and spellings -/

namespace Path

/-- A name that can belong to a file or directory. -/
structure IsName (name : String) : Prop where
  ne_empty : name ≠ ""
  ne_dot : name ≠ "."
  ne_dots : name ≠ ".."
  no_slash : '/' ∉ name.toList

instance (name : String) : Decidable (IsName name) :=
  decidable_of_iff (name ≠ "" ∧ name ≠ "." ∧ name ≠ ".." ∧ '/' ∉ name.toList)
    ⟨fun ⟨h, h', h'', h'''⟩ => ⟨h, h', h'', h'''⟩, fun h => ⟨h.1, h.2, h.3, h.4⟩⟩

/-- The text of a relative path to a file, without the components `.` and `..`. -/
structure IsRelative (text : String) : Prop where
  ne_empty : text ≠ ""
  not_absolute : text.toList.head? ≠ some '/'
  plain : ∀ piece ∈ Text.splitOn '/' text.toList, piece ≠ ['.'] ∧ piece ≠ ['.', '.']

end Path

namespace FileTree

/-- How the path of a file is written from the root on when it is `text` from the current directory. -/
def absolute (tree : FileTree) (text : String) : String :=
  String.ofList ((tree.current.flatMap fun name => '/' :: name.toList) ++ '/' :: text.toList)

/-- The usable settings that a directory holds itself. -/
def settingsAt? (tree : FileTree) (place : List String) : Option Settings :=
  (tree.files.lookup (place ++ [Settings.fileName])).bind Settings.usable?

/-- The settings found by looking from a directory upwards, no further than the top. -/
inductive Nearest (tree : FileTree) (top dir : List String) : Option Settings → Prop where
  | found {place : List String} {settings : Settings} (within : top <+: place) (above : place <+: dir)
      (holds : tree.settingsAt? place = some settings)
      (nearest : ∀ nearer, place <+: nearer → nearer <+: dir → nearer ≠ place →
        tree.settingsAt? nearer = none) :
      Nearest tree top dir (some settings)
  | absent (empty : ∀ place, top <+: place → place <+: dir → tree.settingsAt? place = none) :
      Nearest tree top dir none

variable {tree : FileTree} {top dir : List String}

namespace Nearest

/-- Two directories above a third lie one above the other, so the nearest settings are unique. -/
theorem unique {s t : Option Settings} (hs : tree.Nearest top dir s) (ht : tree.Nearest top dir t) :
    s = t := by
  cases hs with
  | absent hempty =>
    cases ht with
    | absent => rfl
    | found hwithin habove hholds => cases (hempty _ hwithin habove).symm.trans hholds
  | @found place settings hwithin habove hholds hnearest =>
    cases ht with
    | absent hempty => cases (hempty _ hwithin habove).symm.trans hholds
    | @found place' settings' hwithin' habove' hholds' hnearest' =>
      by_cases heq : place = place'
      · rw [← heq] at hholds'
        exact hholds.symm.trans hholds'
      · rcases List.prefix_or_prefix_of_prefix habove habove' with h | h
        · cases (hnearest place' h habove' (Ne.symm heq)).symm.trans hholds'
        · cases (hnearest' place h habove heq).symm.trans hholds

/-- What is found below a top is found below every higher one. -/
theorem higher {top' : List String} {settings : Settings} (htop : top' <+: top)
    (h : tree.Nearest top dir (some settings)) : tree.Nearest top' dir (some settings) := by
  cases h with
  | found hwithin habove hholds hnearest =>
    exact .found (htop.trans hwithin) habove hholds hnearest

/-- Where nothing is found up to a directory, the search goes on from there. -/
theorem onwards {top' : List String} {s : Option Settings} (hdir : top <+: dir)
    (h : tree.Nearest top dir none) (h' : tree.Nearest top' top s) : tree.Nearest top' dir s := by
  cases h with
  | absent hempty =>
    cases h' with
    | found hwithin habove hholds hnearest =>
      refine .found hwithin (habove.trans hdir) hholds fun nearer hplace hnearer hne => ?_
      rcases List.prefix_or_prefix_of_prefix hnearer hdir with h | h
      · exact hnearest nearer hplace h hne
      · exact hempty nearer h hnearer
    | absent hempty' =>
      refine .absent fun place hwithin habove => ?_
      rcases List.prefix_or_prefix_of_prefix habove hdir with h | h
      · exact hempty' place hwithin h
      · exact hempty place h habove

end Nearest

/-! ### Searching a list of places -/

/-- Between a directory and a place below one of its entries there is nothing else. -/
theorem eq_or_entry {name : String} {names place : List String} (htop : top <+: place)
    (h : place <+: top ++ name :: names) : place = top ∨ top ++ [name] <+: place := by
  obtain ⟨below, rfl⟩ := htop
  rw [List.prefix_append_right_inj] at h
  cases below with
  | nil => exact .inl (List.append_nil top)
  | cons first below =>
    obtain ⟨rfl, -⟩ := List.cons_prefix_cons.mp h
    exact .inr ⟨below, by simp⟩

/-- A directory alone has the settings that it holds itself. -/
theorem nearest_self (tree : FileTree) (dir : List String) :
    tree.Nearest dir dir (tree.settingsAt? dir) := by
  have heq : ∀ {place}, dir <+: place → place <+: dir → dir = place :=
    fun hwithin habove => hwithin.eq_of_length_le habove.length_le
  cases hat : tree.settingsAt? dir with
  | none =>
    refine .absent fun place hwithin habove => ?_
    rw [← heq hwithin habove]
    exact hat
  | some settings =>
    refine .found List.prefix_rfl List.prefix_rfl hat fun nearer hwithin habove hne => ?_
    exact absurd (heq hwithin habove).symm hne

/-- When nothing is found up to an entry of a directory, the directory itself comes next. -/
theorem Nearest.leave {name : String} {names : List String}
    (h : tree.Nearest (top ++ [name]) (top ++ name :: names) none) :
    tree.Nearest top (top ++ name :: names) (tree.settingsAt? top) := by
  cases h with
  | absent hempty =>
    cases hat : tree.settingsAt? top with
    | none =>
      refine .absent fun place hwithin habove => ?_
      rcases eq_or_entry hwithin habove with rfl | hentry
      · exact hat
      · exact hempty place hentry habove
    | some settings =>
      refine .found List.prefix_rfl (List.prefix_append _ _) hat fun nearer hwithin habove hne => ?_
      rcases eq_or_entry hwithin habove with heq | hentry
      · exact absurd heq hne
      · exact hempty nearer hentry habove

/-- Trying the shortened names one after the other finds the nearest settings. -/
theorem nearest_search (tree : FileTree) (top names : List String) :
    tree.Nearest top (top ++ names)
      ((Path.shortened names).findSome? fun below => tree.settingsAt? (top ++ below)) := by
  -- The top moves down with each name, so the search below the first name is the same search again.
  induction names generalizing top with
  | nil =>
    rw [Path.shortened, List.findSome?_singleton, List.append_nil]
    exact nearest_self tree top
  | cons name names ih =>
    have hbelow := ih (top ++ [name])
    simp only [List.append_assoc, List.singleton_append] at hbelow
    rw [Path.shortened, List.findSome?_append, List.findSome?_map, List.findSome?_singleton,
      List.append_nil]
    change tree.Nearest top _ (((Path.shortened names).findSome? fun below =>
      tree.settingsAt? (top ++ name :: below)).or (tree.settingsAt? top))
    cases hfound : (Path.shortened names).findSome? fun below =>
        tree.settingsAt? (top ++ name :: below) with
    | some settings =>
      rw [hfound] at hbelow
      exact hbelow.higher (List.prefix_append top [name])
    | none =>
      rw [hfound] at hbelow
      exact hbelow.leave

/-- Only relaxed settings differ from having none. -/
theorem eq_relaxed_of_ne {found : Option Settings} (h : ({} : Settings) ≠ found.getD {}) :
    found = some { strictSafety := false } := by
  rcases found with _ | ⟨_ | _⟩
  · exact absurd rfl h
  · rfl
  · exact absurd rfl h

/-- With the usual settings where none are found, two searches of one directory that go up to different
tops disagree only when the lower one finds nothing and what stands above is not usual. -/
theorem Nearest.ne_iff {top' : List String} {near far : Option Settings} (htop : top' <+: top)
    (hdir : top <+: dir) (hnear : tree.Nearest top dir near) (hfar : tree.Nearest top' dir far) :
    near.getD {} ≠ far.getD {} ↔
      (∀ place, top <+: place → place <+: dir → tree.settingsAt? place = none) ∧
        tree.Nearest top' top (some { strictSafety := false }) := by
  cases near with
  | some settings =>
    -- What the lower search finds is also the nearest for the other.
    have hsame := (hnear.higher htop).unique hfar
    refine ⟨fun hne => absurd (congrArg (fun s : Option Settings => s.getD {}) hsame) hne, ?_⟩
    rintro ⟨hempty, -⟩
    cases (Nearest.absent hempty).unique hnear
  | none =>
    obtain ⟨names, rfl⟩ := htop
    have habove := nearest_search tree top' names
    rw [hfar.unique (hnear.onwards hdir habove)]
    constructor
    · intro hne
      rw [eq_relaxed_of_ne hne] at habove
      cases hnear with
      | absent hempty => exact ⟨hempty, habove⟩
    · rintro ⟨-, hrelaxed⟩
      rw [habove.unique hrelaxed]
      decide

/-! ### Reading a place -/

theorem step_name {name : String} (h : Path.IsName name) (place : List String) :
    step place name = place ++ [name] := by
  unfold step
  split
  · exact absurd rfl h.ne_dot
  · exact absurd rfl h.ne_dots
  · rfl

theorem follow_eq {names : List String} (hnames : ∀ name ∈ names, Path.IsName name)
    {place reached : List String} (h : tree.follow place names = some reached) :
    reached = place ++ names := by
  induction names generalizing place with
  | nil =>
    rw [follow] at h
    rw [← Option.some.inj h, List.append_nil]
  | cons name names ih =>
    rw [follow, step_name (hnames name List.mem_cons_self)] at h
    split at h
    · rw [ih (fun n hn => hnames n (List.mem_cons_of_mem _ hn)) h, List.append_assoc,
        List.singleton_append]
    · cases h

/-- Every directory above a file can be passed through. -/
theorem follow_file {names : List String} (hnames : ∀ name ∈ names, Path.IsName name)
    {place : List String} {content : String} (h : (place ++ names, content) ∈ tree.files) :
    tree.follow place names = some (place ++ names) := by
  induction names generalizing place with
  | nil => rw [follow, List.append_nil]
  | cons name names ih =>
    have hdirectory : tree.isDirectory place = true := by
      refine Bool.or_eq_true_iff.mpr (.inr (List.any_eq_true.mpr ⟨_, h, ?_⟩))
      refine Bool.and_eq_true_iff.mpr ⟨?_, decide_eq_true ?_⟩
      · exact List.isPrefixOf_iff_prefix.mpr (List.prefix_append _ _)
      · simp
    have hsplit : place ++ name :: names = (place ++ [name]) ++ names := by simp
    rw [follow, if_pos hdirectory, step_name (hnames name List.mem_cons_self)]
    rw [hsplit] at h ⊢
    exact ih (fun n hn => hnames n (List.mem_cons_of_mem _ hn)) h

/-- Where a path starts from. -/
def origin (tree : FileTree) (p : Path) : List String :=
  if p.absolute then [] else tree.current

/-- A path of plain names reads the file at the place where they lead, if there is one. -/
theorem read?_eq {p : Path} (hnames : ∀ name ∈ p.names, Path.IsName name)
    (hfile : p.directory = false) :
    tree.read? p = tree.files.lookup (tree.origin p ++ p.names) := by
  have hread : tree.read? p =
      (tree.follow (tree.origin p) p.names).bind fun place => tree.files.lookup place := by
    rw [read?, hfile]
    rfl
  rw [hread]
  cases hfollow : tree.follow (tree.origin p) p.names with
  | some place =>
    rw [follow_eq hnames hfollow]
    rfl
  | none =>
    cases hlookup : tree.files.lookup (tree.origin p ++ p.names) with
    | none => rfl
    | some content =>
      -- A file at that place would make each name on the way a directory.
      obtain ⟨front, back, hfiles, -⟩ := List.lookup_eq_some_iff.mp hlookup
      have hmem : (tree.origin p ++ p.names, content) ∈ tree.files := by simp [hfiles]
      cases hfollow.symm.trans (follow_file hnames hmem)

/-! ### The search of a path -/

/-- The settings of the first place that has usable ones, else the usual settings. -/
theorem firstUsable_eq (tree : FileTree) (places : List Path) :
    Id.run (Settings.firstUsable (fun path => pure (tree.read? path)) places) =
      (places.findSome? fun place => (tree.read? place).bind Settings.usable?).getD {} := by
  induction places with
  | nil => rfl
  | cons place places ih =>
    rw [Settings.firstUsable, pure_bind, List.findSome?_cons]
    cases (tree.read? place).bind Settings.usable? with
    | none => exact ih
    | some settings => rfl

theorem prefix_of_mem_shortened {names below : List String} (h : below ∈ Path.shortened names) :
    below <+: names := by
  induction names generalizing below with
  | nil =>
    obtain rfl := List.mem_singleton.mp h
    exact List.prefix_rfl
  | cons name names ih =>
    rcases List.mem_append.mp h with h | h
    · obtain ⟨below, hbelow, rfl⟩ := List.mem_map.mp h
      exact List.cons_prefix_cons.mpr ⟨rfl, ih hbelow⟩
    · obtain rfl := List.mem_singleton.mp h
      exact List.nil_prefix

theorem isName_fileName : Path.IsName Settings.fileName := by
  decide

/-- From a directory that is written with plain names, the search goes up to where the path starts. -/
theorem discover_nearest {start : Path} (hnames : ∀ name ∈ start.names, Path.IsName name) :
    ∃ found, tree.Nearest (tree.origin start) (tree.origin start ++ start.names) found ∧
      Id.run (Settings.discover (fun path => pure (tree.read? path)) start) = found.getD {} := by
  refine ⟨_, nearest_search tree (tree.origin start) start.names, ?_⟩
  rw [Settings.discover, firstUsable_eq, Settings.places, Path.ancestors, List.map_map,
    List.findSome?_map]
  refine congrArg (fun found : Option Settings => found.getD {}) ?_
  rw [← List.head?_filterMap, ← List.head?_filterMap]
  refine congrArg List.head? (List.filterMap_congr fun below hbelow => ?_)
  have hplain : ∀ name ∈ below ++ [Settings.fileName], Path.IsName name := by
    intro name hname
    rcases List.mem_append.mp hname with hname | hname
    · exact hnames name ((prefix_of_mem_shortened hbelow).subset hname)
    · rw [List.mem_singleton.mp hname]
      exact isName_fileName
  have hread : tree.read? ⟨start.absolute, below ++ [Settings.fileName], false⟩ =
      tree.files.lookup (tree.origin start ++ (below ++ [Settings.fileName])) := read?_eq hplain rfl
  rw [← List.append_assoc] at hread
  exact congrArg (Option.bind · Settings.usable?) hread

/-- A name alone is looked for in the current directory, once as `.` and once without a name. -/
theorem discover_here (tree : FileTree) :
    Id.run (Settings.discover (fun path => pure (tree.read? path)) .here) =
      (tree.settingsAt? tree.current).getD {} := by
  have hdirectory : tree.isDirectory tree.current = true := by
    refine Bool.or_eq_true_iff.mpr (.inl ?_)
    exact List.isPrefixOf_iff_prefix.mpr List.prefix_rfl
  have hnamed : tree.read? ⟨false, [Settings.fileName], false⟩ =
      tree.files.lookup (tree.current ++ [Settings.fileName]) :=
    read?_eq (by simpa using isName_fileName) rfl
  have hfollow : tree.follow tree.current [".", Settings.fileName] =
      tree.follow tree.current [Settings.fileName] := by
    rw [follow, if_pos hdirectory]
    rfl
  have hdotted : tree.read? ⟨false, [".", Settings.fileName], false⟩ =
      tree.read? ⟨false, [Settings.fileName], false⟩ := by
    simp only [read?, resolve?, Bool.false_eq_true, if_false, hfollow]
  have hplaces : Settings.places .here =
      [⟨false, [".", Settings.fileName], false⟩, ⟨false, [Settings.fileName], false⟩] := rfl
  rw [Settings.discover, firstUsable_eq, hplaces, List.findSome?_cons, List.findSome?_singleton,
    hdotted, hnamed, settingsAt?]
  cases (tree.files.lookup (tree.current ++ [Settings.fileName])).bind Settings.usable? <;> rfl

end FileTree

/-! ### Spellings -/

namespace Path

variable {text : String}

/-- The pieces of a text that carry a name. -/
def named (pieces : List (List Char)) : List String :=
  (pieces.filter fun piece => !isVoid piece).map String.ofList

theorem named_append (pieces pieces' : List (List Char)) :
    named (pieces ++ pieces') = named pieces ++ named pieces' := by
  rw [named, List.filter_append, List.map_append]
  rfl

theorem named_names {names : List String} (hnames : ∀ name ∈ names, IsName name) :
    named (names.map String.toList) = names := by
  induction names with
  | nil => rfl
  | cons name names ih =>
    obtain ⟨hempty, hdot, -, -⟩ := hnames name List.mem_cons_self
    have hvoid : isVoid name.toList = false := by
      rw [isVoid, Bool.or_eq_false_iff, decide_eq_false_iff_not, decide_eq_false_iff_not]
      refine ⟨fun h => hempty (String.toList_eq_nil_iff.mp h), fun h => hdot ?_⟩
      exact String.toList_inj.mp h
    rw [List.map_cons, named, List.filter_cons, hvoid, Bool.not_false, if_pos rfl, List.map_cons,
      String.ofList_toList]
    exact congrArg (name :: ·) (ih fun n hn => hnames n (List.mem_cons_of_mem name hn))

theorem names_ofText (h : (Text.splitOn '/' text.toList).head? ≠ some ['.']) :
    (ofText text).names = named (Text.splitOn '/' text.toList) := by
  rw [ofText, named]
  dsimp only
  rw [if_neg h]

theorem IsRelative.names_eq (h : IsRelative text) :
    (ofText text).names = named (Text.splitOn '/' text.toList) := by
  refine names_ofText fun hhead => ?_
  exact (h.plain _ (List.mem_of_mem_head? hhead)).1 rfl

theorem IsRelative.absolute_eq (h : IsRelative text) : (ofText text).absolute = false :=
  decide_eq_false h.not_absolute

theorem IsRelative.isName (h : IsRelative text) {name : String} (hname : name ∈ (ofText text).names) :
    IsName name := by
  rw [h.names_eq] at hname
  obtain ⟨piece, hpiece, rfl⟩ := List.mem_map.mp hname
  obtain ⟨hmem, hvoid⟩ := List.mem_filter.mp hpiece
  obtain ⟨hdot, hdots⟩ := h.plain piece hmem
  have hinj : ∀ other : String, piece ≠ other.toList → String.ofList piece ≠ other := by
    rintro other hne rfl
    exact hne (String.toList_ofList).symm
  refine ⟨hinj "" ?_, hinj "." hdot, hinj ".." hdots, ?_⟩
  · rintro rfl
    cases hvoid
  · rw [String.toList_ofList]
    exact Text.not_mem_of_mem_splitOn hmem

/-- The first character belongs to a name. -/
theorem IsRelative.names_ne_nil (h : IsRelative text) : (ofText text).names ≠ [] := by
  rw [h.names_eq]
  cases htext : text.toList with
  | nil => exact absurd (String.toList_eq_nil_iff.mp htext) h.ne_empty
  | cons c cs =>
    have hc : c ≠ '/' := by
      rintro rfl
      exact h.not_absolute (by rw [htext]; rfl)
    obtain ⟨piece, pieces, -, hcons⟩ := Text.splitOn_other hc cs
    have hdot := (h.plain (c :: piece) (by rw [htext, hcons]; exact List.mem_cons_self)).1
    have hvoid : isVoid (c :: piece) = false := by
      simp [isVoid, hdot]
    rw [hcons, named, List.filter_cons, hvoid]
    exact List.cons_ne_nil _ _

theorem splitOn_absolute {names : List String} (hnames : ∀ name ∈ names, IsName name)
    (rest : List Char) :
    Text.splitOn '/' ((names.flatMap fun name => '/' :: name.toList) ++ '/' :: rest) =
      [] :: (names.map String.toList ++ Text.splitOn '/' rest) := by
  induction names with
  | nil => exact Text.splitOn_separator rest
  | cons name names ih =>
    have ih := ih fun n hn => hnames n (List.mem_cons_of_mem name hn)
    rw [List.flatMap_cons, List.append_assoc, List.cons_append, Text.splitOn_separator,
      Text.splitOn_prepend (hnames name List.mem_cons_self).no_slash ih, List.append_nil]
    rfl

/-- Written from the root on, a path has the names of the current directory in front of its own. -/
theorem ofText_absolute {tree : FileTree} (htree : ∀ name ∈ tree.current, IsName name)
    (h : IsRelative text) :
    (ofText (tree.absolute text)).absolute = true ∧
      (ofText (tree.absolute text)).names = tree.current ++ (ofText text).names := by
  have hpieces := splitOn_absolute htree text.toList
  have htext : (tree.absolute text).toList =
      (tree.current.flatMap fun name => '/' :: name.toList) ++ '/' :: text.toList := by
    rw [FileTree.absolute, String.toList_ofList]
  rw [← htext] at hpieces
  constructor
  · refine decide_eq_true ?_
    rw [htext]
    cases tree.current <;> rfl
  · have hhead : (Text.splitOn '/' (tree.absolute text).toList).head? ≠ some ['.'] := by
      rw [hpieces]
      simp
    have hempty : ∀ pieces, named ([] :: pieces) = named pieces := fun _ => rfl
    rw [names_ofText hhead, hpieces, hempty, named_append, named_names htree, h.names_eq]

end Path

/-! ### The settings of a file -/

namespace FileTree

variable {tree : FileTree} {request : Command.Check}

/-- The settings for a request on the files of a tree. -/
def settings (tree : FileTree) (request : Command.Check) : Settings :=
  Id.run (request.settings fun path => pure (tree.read? path))

theorem settings_eq (hrelaxed : request.relaxed = false) (hstrict : request.strict = false) :
    tree.settings request =
      Id.run (Settings.discover (fun path => pure (tree.read? path)) request.start) := by
  rw [settings, Command.Check.settings, hrelaxed, hstrict]
  rfl

/-- The directory of the file that a path names. -/
def directory (tree : FileTree) (p : Path) : List String :=
  tree.origin p ++ p.names.dropLast

/-- The search starts in the directory of the file, and ends where its path does. -/
theorem settings_nearest (tree : FileTree) (request : Command.Check)
    (hrelaxed : request.relaxed = false) (hstrict : request.strict = false)
    (hnames : ∀ name ∈ request.path.names, Path.IsName name) (hne : request.path.names ≠ []) :
    ∃ found, tree.Nearest (tree.origin request.path) (tree.directory request.path) found ∧
      tree.settings request = found.getD {} := by
  let parent : Path := { absolute := request.path.absolute, names := request.path.names.dropLast }
  have hparent : request.path.parent? = some parent := by
    rw [Path.parent?, if_neg (by simpa using hne)]
  have hstart : request.start = if !parent.absolute && parent.names.isEmpty then .here else parent := by
    rw [Command.Check.start, hparent]
  have hplain : ∀ name ∈ parent.names, Path.IsName name :=
    fun name hname => hnames name (List.mem_of_mem_dropLast hname)
  rw [settings_eq hrelaxed hstrict, hstart]
  split
  · -- A name alone has no directory written in front of it, and `.` stands for it.
    rename_i hhere
    obtain ⟨hrelative, hempty⟩ := Bool.and_eq_true_iff.mp hhere
    have horigin : tree.origin request.path = tree.current := by
      rw [origin, if_neg (by simpa using hrelative)]
    have hdirectory : tree.directory request.path = tree.current ++ parent.names := by
      rw [directory, horigin]
    rw [horigin, hdirectory, List.isEmpty_iff.mp hempty, List.append_nil, discover_here]
    exact ⟨_, nearest_self tree tree.current, rfl⟩
  · exact discover_nearest hplain

section Spelling

variable (htree : ∀ name ∈ tree.current, Path.IsName name) (hfile : Path.IsRelative request.file)

include hfile

theorem origin_relative : tree.origin request.path = tree.current := by
  rw [origin, Command.Check.path, hfile.absolute_eq]
  rfl

theorem directory_relative :
    tree.directory request.path = tree.current ++ request.path.names.dropLast := by
  rw [directory, origin_relative hfile]

/-- Written from the current directory, the path of a file leads the search up to there. -/
theorem settings_relative (hrelaxed : request.relaxed = false) (hstrict : request.strict = false) :
    ∃ found, tree.Nearest tree.current (tree.directory request.path) found ∧
      tree.settings request = found.getD {} := by
  have hsearch := tree.settings_nearest request hrelaxed hstrict (fun name => hfile.isName)
    hfile.names_ne_nil
  rwa [origin_relative hfile] at hsearch

include htree

/-- Written from the root on, it leads the search up to the root, from the same directory. -/
theorem settings_absolute (hrelaxed : request.relaxed = false) (hstrict : request.strict = false) :
    ∃ found, tree.Nearest [] (tree.directory request.path) found ∧
      tree.settings { request with file := tree.absolute request.file } = found.getD {} := by
  obtain ⟨habsolute, hwhole⟩ := Path.ofText_absolute htree hfile
  have horigin : tree.origin (Path.ofText (tree.absolute request.file)) = [] := by
    rw [origin, if_pos habsolute]
  have hdirectory : tree.directory (Path.ofText (tree.absolute request.file)) =
      tree.directory request.path := by
    rw [directory_relative hfile, directory, horigin, hwhole,
      List.dropLast_append_of_ne_nil hfile.names_ne_nil]
    rfl
  have hnames : ∀ name ∈ (Path.ofText (tree.absolute request.file)).names, Path.IsName name := by
    intro name hname
    rw [hwhole] at hname
    rcases List.mem_append.mp hname with hname | hname
    · exact htree name hname
    · exact hfile.isName hname
  have hne : (Path.ofText (tree.absolute request.file)).names ≠ [] := by
    rw [hwhole]
    exact List.append_ne_nil_of_right_ne_nil _ hfile.names_ne_nil
  have hsearch := tree.settings_nearest { request with file := tree.absolute request.file } hrelaxed
    hstrict hnames hne
  rw [Command.Check.path, horigin, hdirectory] at hsearch
  exact hsearch

end Spelling

end FileTree

/-- Without a flag, a file whose path is written from the current directory is given the nearest settings
between its own directory and the current one; written from the root on, it is given the nearest settings
up to the root. The two differ exactly when there are no usable settings from the directory of the file up
to the current one and the nearest above are relaxed. -/
theorem settings_by_spelling {tree : FileTree} {request : Command.Check}
    (htree : ∀ name ∈ tree.current, Path.IsName name) (hfile : Path.IsRelative request.file)
    (hrelaxed : request.relaxed = false) (hstrict : request.strict = false) :
    (∃ found, tree.Nearest tree.current (tree.directory request.path) found ∧
      tree.settings request = found.getD { strictSafety := true }) ∧
    (∃ found, tree.Nearest [] (tree.directory request.path) found ∧
      tree.settings { request with file := tree.absolute request.file } =
        found.getD { strictSafety := true }) ∧
    (tree.settings request ≠ tree.settings { request with file := tree.absolute request.file } ↔
      (∀ place, tree.current <+: place → place <+: tree.directory request.path →
        tree.settingsAt? place = none) ∧
      tree.Nearest [] tree.current (some { strictSafety := false })) := by
  obtain ⟨near, hnear, hrelative⟩ := FileTree.settings_relative hfile hrelaxed hstrict
  obtain ⟨far, hfar, habsolute⟩ := FileTree.settings_absolute htree hfile hrelaxed hstrict
  refine ⟨⟨near, hnear, hrelative⟩, ⟨far, hfar, habsolute⟩, ?_⟩
  have hdir : tree.current <+: tree.directory request.path := by
    rw [FileTree.directory_relative hfile]
    exact List.prefix_append _ _
  rw [hrelative, habsolute]
  exact hnear.ne_iff List.nil_prefix hdir hfar

namespace Nested

def relaxedText : String :=
  "\x7b\"typecheck\": \x7b\"strictSafety\": false\x7d\x7d"

/-- Relaxed settings above the current directory, which has settings of its own that cannot be decoded. -/
def tree : FileTree where
  files := [
    (["srv", "tuff.json"], relaxedText),
    (["srv", "app", "tuff.json"], "\x7b\"typecheck\": "),
    (["srv", "app", "lib", "main.tuff"], "")]
  current := ["srv", "app"]

def request : Command.Check where
  file := "lib/main.tuff"

theorem isRelative_file : Path.IsRelative request.file :=
  ⟨by decide, by decide, by decide⟩

end Nested

theorem settings_by_spelling_nested :
    Nested.tree.absolute Nested.request.file = "/srv/app/lib/main.tuff" ∧
    (∀ name ∈ Nested.tree.current, Path.IsName name) ∧ Path.IsRelative Nested.request.file ∧
    (∀ place, Nested.tree.current <+: place → place <+: ["srv", "app", "lib"] →
      Nested.tree.settingsAt? place = none) ∧
    Nested.tree.Nearest [] Nested.tree.current (some { strictSafety := false }) := by
  have htree : ∀ name ∈ Nested.tree.current, Path.IsName name := by decide
  have hdiffer : Nested.tree.settings Nested.request ≠
      Nested.tree.settings { Nested.request with file := Nested.tree.absolute Nested.request.file } := by
    decide +kernel
  exact ⟨by decide, htree, Nested.isRelative_file,
    (settings_by_spelling htree Nested.isRelative_file rfl rfl).2.2.mp hdiffer⟩

namespace Rooted

/-- Relaxed settings in the root, above the current directory. -/
def tree : FileTree where
  files := [(["tuff.json"], Nested.relaxedText), (["work", "main.tuff"], "")]
  current := ["work"]

def request : Command.Check where
  file := "main.tuff"

end Rooted

/-- The settings of a file do depend on how its path is written. -/
theorem settings_depend_on_spelling :
    (∀ name ∈ Rooted.tree.current, Path.IsName name) ∧ Path.IsRelative Rooted.request.file ∧
      Rooted.tree.absolute Rooted.request.file = "/work/main.tuff" ∧
      Rooted.tree.settings Rooted.request = { strictSafety := true } ∧
      Rooted.tree.settings { Rooted.request with file := "/work/main.tuff" } =
        { strictSafety := false } := by
  refine ⟨by decide, ⟨by decide, by decide, by decide⟩, by decide, ?_, ?_⟩
  · decide +kernel
  · decide +kernel

end TuffSafety
