import Mathlib.Logic.Basic
import QueryScope.Proofs.Settings.Store
import QueryScope.Proofs.Words
import QueryScope.Settings.Directory

/-!
# The files of keys

Every key that a directory accepts has two files of its own, one that is read and one in which a new
text is made ready. They stand in the directory itself, and no file of one key is a file of another.
A save that is interrupted before its text is put in place therefore shows under no key: what is
read is what the completed saves have left.
-/

namespace QueryScope

open QueryScope.StoreM (runOn_bind runOn_get_bind)

/-! ## Names -/

namespace FileName

theorem stem_append {name : List Char} (hname : name ≠ []) {extension : List Char}
    (h : '.' ∉ extension) : stem (name ++ '.' :: extension) = name := by
  have hreverse :
      (name ++ '.' :: extension).reverse = extension.reverse ++ '.' :: name.reverse := by
    simp
  have hskip : ∀ c ∈ extension.reverse, decide (c ≠ '.') = true := by
    intro c hc
    refine decide_eq_true ?_
    rintro rfl
    exact h (List.mem_reverse.mp hc)
  have hrest : ((name ++ '.' :: extension).reverse.dropWhile (· ≠ '.')).drop 1 = name.reverse := by
    rw [hreverse, dropWhile_append_cons hskip (by decide)]
    rfl
  rw [stem, hrest]
  split
  next hnil => exact absurd (List.reverse_eq_nil_iff.mp hnil) hname
  next => exact List.reverse_reverse name

theorem withExtension_append {name : String} (hname : name ≠ "") :
    withExtension (name ++ ".json") "json.tmp" = name ++ ".json.tmp" := by
  have hchars : (name ++ ".json").toList = name.toList ++ '.' :: "json".toList := by
    rw [String.toList_append]
    rfl
  rw [withExtension, hchars, stem_append (mt String.toList_eq_nil_iff.mp hname) (by decide),
    String.ofList_toList, String.append_assoc]
  rfl

/-! ## Where a name leads -/

/-- Whether a character separates the names of a path. -/
def isSeparator (c : Char) : Bool :=
  c = '/' || c = '\\'

/-- Where a name leads from a directory, which is given by the names on the way to it. -/
def enter (directory : List String) (name : List Char) : List String :=
  if name = [] ∨ name = ['.'] then directory
  else if name = ['.', '.'] then directory.dropLast
  else directory ++ [String.ofList name]

/-- Where a path leads from a directory; one that starts with a separator leads from the top. -/
def follow (directory : List String) (path : String) : List String :=
  (path.toList.splitOnP isSeparator).foldl enter
    (if path.toList.head?.any isSeparator then [] else directory)

/-- A name without separators that does not start with a dot leads into what it names. -/
theorem follow_eq {name : String} (hne : name ≠ "") (hplain : name.toList.any isSeparator = false)
    (hdot : name.toList.head? ≠ some '.') (directory : List String) :
    follow directory name = directory ++ [name] := by
  have hchars : ∀ c ∈ name.toList, isSeparator c = false := fun c hc =>
    Bool.eq_false_iff.mpr (List.any_eq_false.mp hplain c hc)
  obtain ⟨c, rest, hname⟩ :=
    List.exists_cons_of_ne_nil (mt String.toList_eq_nil_iff.mp hne)
  rw [hname] at hdot
  have hc : c ≠ '.' := fun heq => hdot (congrArg some heq)
  have hstart : isSeparator c = false := hchars c (by rw [hname]; exact List.mem_cons_self)
  rw [follow, List.splitOnP_eq_singleton hchars, hname, List.head?_cons, Option.any_some, hstart,
    if_neg Bool.false_ne_true, List.foldl_cons, List.foldl_nil, enter, if_neg (by simp [hc]),
    if_neg (by simp [hc]), ← hname, String.ofList_toList]

end FileName

namespace Directory

open FileName (isAdmitted refusal follow)

variable {key other text name : String} {d : Directory}

theorem stagingName_eq (h : key ≠ "") : stagingName key = key ++ ".json.tmp" :=
  FileName.withExtension_append h

theorem fileName_inj (h : fileName key = fileName other) : key = other :=
  (String.append_left_inj _).mp h

/-- One kind of file ends in another letter than the other. -/
theorem staged_ne_fileName (key other : String) : key ++ ".json.tmp" ≠ fileName other := by
  intro h
  have hlast := congrArg (fun name => name.toList.getLast?) h
  simp [fileName] at hlast

/-! ## Keys -/

theorem isKey_iff : isKey key = true ↔
    key ≠ "" ∧ '/' ∉ key.toList ∧ '\\' ∉ key.toList ∧ key.toList.head? ≠ some '.' := by
  simp [isKey, and_assoc]

theorem not_isKey_iff : isKey key = false ↔
    key = "" ∨ '/' ∈ key.toList ∨ '\\' ∈ key.toList ∨ key.toList.head? = some '.' := by
  rw [Bool.eq_false_iff, Ne, isKey_iff]
  simp only [ne_eq, not_and_or, not_not]

/-- A key that may name a file leads into the directory, with whatever is written behind it. -/
theorem follow_append (h : isKey key = true)
    (hplain : name.toList.any FileName.isSeparator = false) (directory : List String) :
    follow directory (key ++ name) = directory ++ [key ++ name] := by
  obtain ⟨hne, hslash, hbackslash, hdot⟩ := isKey_iff.mp h
  obtain ⟨c, rest, hkey⟩ := List.exists_cons_of_ne_nil (mt String.toList_eq_nil_iff.mp hne)
  refine FileName.follow_eq (fun heq => hne (String.append_eq_empty_iff.mp heq).1) ?_ ?_ directory
  · rw [String.toList_append, List.any_append, hplain, Bool.or_false]
    refine List.any_eq_false.mpr fun c hc hseparator => ?_
    rcases Bool.or_eq_true_iff.mp hseparator with heq | heq
    · exact hslash (of_decide_eq_true heq ▸ hc)
    · exact hbackslash (of_decide_eq_true heq ▸ hc)
  · rw [String.toList_append, hkey]
    rwa [hkey] at hdot

/-! ## Loading and saving -/

theorem runOn_file {α : Type} (h : isKey key = true) (next : String → StoreM Directory α)
    (d : Directory) : (file key >>= next).runOn d = (next (fileName key)).runOn d := by
  rw [runOn_bind, file, if_pos h]
  rfl

/-- Nothing is read or written for a key that may not name a file. -/
theorem runOn_file_refused {α : Type} (h : isKey key = false) (next : String → StoreM Directory α)
    (d : Directory) : (file key >>= next).runOn d = (.error (.invalidKey key), d) := by
  rw [runOn_bind, file, if_neg (by rw [h]; exact Bool.false_ne_true)]
  rfl

theorem runOn_write (name text : String) (d : Directory) : (write name text).runOn d =
    if isAdmitted name then (.ok (), { d with files := putText name text d.files })
    else (.error (.io (refusal name)), d) := by
  rw [write]
  split <;> rfl

theorem runOn_rename (h : textUnder? name d.files = some text) (target : String) :
    (rename name target).runOn d =
      (.ok (), { d with files := putText target text (d.files.filter fun f => f.1 ≠ name) }) := by
  rw [rename, runOn_get_bind]
  simp only [h]
  rfl

theorem loadText_eq (key : String) : (Store.loadText key : StoreM Directory String) =
    file key >>= fun name => if isAdmitted name then
      get >>= fun d : Directory => match textUnder? name d.files with
        | some text => return text
        | none => throw .notFound
    else throw (.io (refusal name)) := rfl

theorem runOn_loadText (h : isKey key = true) (d : Directory) :
    (Store.loadText key : StoreM Directory String).runOn d =
      (if isAdmitted (fileName key) then
        match textUnder? (fileName key) d.files with
        | some text => .ok text
        | none => .error .notFound
      else .error (.io (refusal (fileName key))), d) := by
  rw [loadText_eq, runOn_file h]
  by_cases hname : isAdmitted (fileName key) = true
  · rw [if_pos hname, if_pos hname, runOn_get_bind]
    cases textUnder? (fileName key) d.files <;> rfl
  · rw [if_neg hname, if_neg hname]
    rfl

/-- What has happened when a save is interrupted: some text, be it a part of the new one or all of
it, stands in the file where the text is made ready, and that file has not been renamed. -/
def stage (key text : String) : StoreM Directory Unit :=
  file key >>= fun _ => write (stagingName key) text

theorem saveText_eq (key text : String) : (Store.saveText key text : StoreM Directory Unit) =
    file key >>= fun name => write (stagingName key) text >>= fun _ =>
      rename (stagingName key) name := rfl

/-- To save is to make the text ready and to put it in place. -/
theorem runOn_saveText_eq (h : isKey key = true) (text : String) (d : Directory) :
    (Store.saveText key text : StoreM Directory Unit).runOn d =
      (stage key text >>= fun _ => rename (stagingName key) (fileName key)).runOn d := by
  rw [saveText_eq, runOn_file h, runOn_bind, runOn_bind, stage, runOn_file h]

theorem runOn_stage (h : isKey key = true) (text : String) (d : Directory) :
    (stage key text).runOn d =
      if isAdmitted (stagingName key) then
        (.ok (), { d with files := putText (stagingName key) text d.files })
      else (.error (.io (refusal (stagingName key))), d) := by
  rw [stage, runOn_file h, runOn_write]

theorem runOn_saveText (h : isKey key = true) (text : String) (d : Directory) :
    (Store.saveText key text : StoreM Directory Unit).runOn d =
      if isAdmitted (stagingName key) then
        (.ok (), { d with
          files := putText (fileName key) text
            ((putText (stagingName key) text d.files).filter fun f => f.1 ≠ stagingName key) })
      else (.error (.io (refusal (stagingName key))), d) := by
  rw [runOn_saveText_eq h, runOn_bind, runOn_stage h]
  by_cases hname : isAdmitted (stagingName key) = true
  · rw [if_pos hname, if_pos hname]
    exact runOn_rename (textUnder?_putText _ _ _) _
  · rw [if_neg hname, if_neg hname]

/-! ## What is under a name afterwards -/

theorem textUnder?_staged (h : isKey key = true) (text : String) (d : Directory) :
    textUnder? (fileName other) ((stage key text).runOn d).2.files =
      textUnder? (fileName other) d.files := by
  obtain ⟨hne, -⟩ := isKey_iff.mp h
  rw [runOn_stage h]
  split
  · refine textUnder?_putText_of_ne ?_ text d.files
    rw [stagingName_eq hne]
    exact (staged_ne_fileName key other).symm
  · rfl

/-- A save that succeeds puts the text under the name of the key and leaves nothing made ready. -/
theorem textUnder?_saved (h : isKey key = true) (hname : isAdmitted (stagingName key) = true)
    (name text : String) (d : Directory) :
    textUnder? name ((Store.saveText key text : StoreM Directory Unit).runOn d).2.files =
      if name = fileName key then some text
      else if name = stagingName key then none else textUnder? name d.files := by
  rw [runOn_saveText h, if_pos hname]
  by_cases hfile : name = fileName key
  · rw [if_pos hfile, hfile]
    exact textUnder?_putText _ _ _
  · rw [if_neg hfile]
    refine (textUnder?_putText_of_ne hfile text _).trans ?_
    rw [textUnder?_filter]
    by_cases hstaging : name = stagingName key
    · rw [if_pos hstaging, if_pos hstaging]
    · rw [if_neg hstaging, if_neg hstaging, textUnder?_putText_of_ne hstaging]

theorem loadText_congr {d d' : Directory}
    (h : textUnder? (fileName key) d.files = textUnder? (fileName key) d'.files) :
    ((Store.loadText key : StoreM Directory String).runOn d).1 =
      ((Store.loadText key : StoreM Directory String).runOn d').1 := by
  cases hkey : isKey key with
  | true => rw [runOn_loadText hkey, runOn_loadText hkey, h]
  | false => rw [loadText_eq, runOn_file_refused hkey, runOn_file_refused hkey]

/-- A file system that takes the longer name of a key takes the shorter one. -/
theorem isAdmitted_fileName (hne : key ≠ "") (h : isAdmitted (stagingName key) = true) :
    isAdmitted (fileName key) = true := by
  have hlonger : stagingName key = fileName key ++ ".tmp" := by
    rw [stagingName_eq hne, fileName, String.append_assoc]
    rfl
  rw [hlonger, isAdmitted, Bool.and_eq_true, String.utf8ByteSize_append, String.toList_append] at h
  obtain ⟨hsize, hnul⟩ := h
  have hsize' := of_decide_eq_true hsize
  rw [isAdmitted, Bool.and_eq_true]
  refine ⟨decide_eq_true (by omega), ?_⟩
  simp only [Bool.not_eq_true', List.contains_eq_mem, decide_eq_false_iff_not, List.mem_append,
    not_or] at hnul ⊢
  exact hnul.1

/-- What a save that succeeds has left is read. -/
theorem loadText_saved (h : isKey key = true)
    (hsaved : ((Store.saveText key text : StoreM Directory Unit).runOn d).1 = .ok ()) :
    ((Store.loadText key : StoreM Directory String).runOn
      ((Store.saveText key text : StoreM Directory Unit).runOn d).2).1 = .ok text := by
  have hname : isAdmitted (stagingName key) = true := by
    cases hname : isAdmitted (stagingName key) with
    | true => rfl
    | false =>
      rw [runOn_saveText h, hname, if_neg Bool.false_ne_true] at hsaved
      cases hsaved
  rw [runOn_loadText h, if_pos (isAdmitted_fileName (isKey_iff.mp h).1 hname),
    textUnder?_saved h hname, if_pos rfl]

/-! ## Keys that are accepted -/

/-- The key is turned away, and the directory is neither looked into nor changed. -/
structure Rejects (key : String) : Prop where
  loads : ∀ d : Directory,
    (Store.loadText key : StoreM Directory String).runOn d = (.error (.invalidKey key), d)
  saves : ∀ (text : String) (d : Directory),
    (Store.saveText key text : StoreM Directory Unit).runOn d = (.error (.invalidKey key), d)

/-- The key is never turned away, whatever else may come in the way. -/
structure Accepts (key : String) : Prop where
  loads : ∀ d : Directory,
    ((Store.loadText key : StoreM Directory String).runOn d).1 ≠ .error (.invalidKey key)
  saves : ∀ (text : String) (d : Directory),
    ((Store.saveText key text : StoreM Directory Unit).runOn d).1 ≠ .error (.invalidKey key)

theorem rejects_of_not_isKey (h : isKey key = false) : Rejects key where
  loads d := by rw [loadText_eq, runOn_file_refused h]
  saves text d := by rw [saveText_eq, runOn_file_refused h]

theorem accepts_of_isKey (h : isKey key = true) : Accepts key where
  loads d := by
    rw [runOn_loadText h]
    split
    · split <;> exact nofun
    · exact nofun
  saves text d := by
    rw [runOn_saveText h]
    split <;> exact nofun

theorem Accepts.not_rejects (h : Accepts key) : ¬Rejects key := fun hrejects =>
  h.loads {} (congrArg Prod.fst (hrejects.loads {}))

theorem accepts_iff : Accepts key ↔ isKey key = true := by
  refine ⟨fun h => ?_, accepts_of_isKey⟩
  cases hkey : isKey key with
  | true => rfl
  | false => exact absurd (rejects_of_not_isKey hkey) h.not_rejects

theorem rejects_iff : Rejects key ↔ isKey key = false := by
  refine ⟨fun h => ?_, rejects_of_not_isKey⟩
  cases hkey : isKey key with
  | true => exact absurd h (accepts_of_isKey hkey).not_rejects
  | false => rfl

/-- What the store owes to a key that it accepts. -/
structure OwnsFiles (key : String) : Prop where
  fileName_eq : fileName key = key ++ ".json"
  stagingName_eq : stagingName key = key ++ ".json.tmp"
  /-- Both files stand in the directory itself. -/
  file_inside : ∀ directory, follow directory (fileName key) = directory ++ [fileName key]
  staging_inside : ∀ directory, follow directory (stagingName key) = directory ++ [stagingName key]
  /-- No file of another key is one of them, and they are not the same file. -/
  fileName_ne : ∀ other, Accepts other → other ≠ key → fileName other ≠ fileName key
  stagingName_ne : ∀ other, Accepts other → other ≠ key → stagingName other ≠ stagingName key
  stagingName_ne_fileName : ∀ other, Accepts other → stagingName key ≠ fileName other
  /-- Loading reads the one file and leaves everything as it is. -/
  loads : ∀ d d' : Directory,
    textUnder? (fileName key) d.files = textUnder? (fileName key) d'.files →
      ((Store.loadText key : StoreM Directory String).runOn d).1 =
        ((Store.loadText key : StoreM Directory String).runOn d').1 ∧
      ((Store.loadText key : StoreM Directory String).runOn d).2 = d
  /-- Saving writes the two files only. -/
  saves : ∀ (text : String) (d : Directory) (name : String), name ≠ fileName key →
    name ≠ stagingName key →
      textUnder? name ((Store.saveText key text : StoreM Directory Unit).runOn d).2.files =
        textUnder? name d.files
  /-- What is saved is read. -/
  keeps : ∀ (text : String) (d : Directory),
    ((Store.saveText key text : StoreM Directory Unit).runOn d).1 = .ok () →
      ((Store.loadText key : StoreM Directory String).runOn
        ((Store.saveText key text : StoreM Directory Unit).runOn d).2).1 = .ok text

theorem ownsFiles_of_isKey (h : isKey key = true) : OwnsFiles key := by
  obtain ⟨hne, -⟩ := isKey_iff.mp h
  have hstaging := stagingName_eq hne
  refine ⟨rfl, hstaging, follow_append h (by decide), fun directory => ?_,
    fun other _ hother heq => hother (fileName_inj heq), fun other haccepts hother heq => ?_,
    fun other _ => ?_, fun d d' hfile => ⟨loadText_congr hfile, ?_⟩,
    fun text d name hfile hname => ?_, fun text d => loadText_saved h⟩
  · rw [hstaging]
    exact follow_append h (by decide) directory
  · rw [hstaging, stagingName_eq (isKey_iff.mp (accepts_iff.mp haccepts)).1] at heq
    exact hother ((String.append_left_inj _).mp heq)
  · rw [hstaging]
    exact staged_ne_fileName key other
  · rw [runOn_loadText h]
  · by_cases hadmitted : isAdmitted (stagingName key) = true
    · rw [textUnder?_saved h hadmitted, if_neg hfile, if_neg hname]
    · rw [runOn_saveText h, if_neg hadmitted]

/-! ## Saves that are interrupted -/

/-- What becomes of a save. -/
inductive Attempt where
  /-- It is carried out. -/
  | completed (key text : String)
  /-- It ends between writing and renaming. -/
  | interrupted (key text : String)

namespace Attempt

/-- What is done of the save. -/
def perform : Attempt → StoreM Directory Unit
  | completed key text => Store.saveText key text
  | interrupted key text => stage key text

/-- Whether the save is carried out. -/
def isCompleted : Attempt → Bool
  | completed _ _ => true
  | interrupted _ _ => false

end Attempt

/-- The directory after saves, one after the other. -/
def after (d : Directory) (attempts : List Attempt) : Directory :=
  attempts.foldl (fun d a => (a.perform.runOn d).2) d

/-- The same texts are under all keys. -/
def Agrees (d d' : Directory) : Prop :=
  ∀ key, textUnder? (fileName key) d.files = textUnder? (fileName key) d'.files

theorem agrees_staged (key text : String) (d : Directory) :
    Agrees ((stage key text).runOn d).2 d := by
  intro other
  cases h : isKey key with
  | true => exact textUnder?_staged h text d
  | false => rw [stage, runOn_file_refused h]

theorem Agrees.saved {d d' : Directory} (h : Agrees d d') (key text : String) :
    Agrees ((Store.saveText key text : StoreM Directory Unit).runOn d).2
      ((Store.saveText key text : StoreM Directory Unit).runOn d').2 := by
  intro other
  cases hkey : isKey key with
  | true =>
    by_cases hname : isAdmitted (stagingName key) = true
    · rw [textUnder?_saved hkey hname, textUnder?_saved hkey hname, h other]
    · rw [runOn_saveText hkey, runOn_saveText hkey, if_neg hname, if_neg hname]
      exact h other
  | false =>
    rw [saveText_eq, runOn_file_refused hkey, runOn_file_refused hkey]
    exact h other

/-- Where saves are interrupted, the texts under the keys are the same as without these saves. -/
theorem Agrees.after {d d' : Directory} (h : Agrees d d') (attempts : List Attempt) :
    Agrees (d.after attempts) (d'.after (attempts.filter Attempt.isCompleted)) := by
  induction attempts generalizing d d' with
  | nil => exact h
  | cons a rest ih =>
    cases a with
    | completed key text => exact ih (h.saved key text)
    | interrupted key text =>
      exact ih fun other => (agrees_staged key text d other).trans (h other)

/-- A key is turned away if and only if it is empty, has a slash in it or starts with a dot, and has
its own two files otherwise. Whatever saves are interrupted, each key is read as if only the others
had been made. -/
theorem keyFiles_disjoint :
    (∀ key, (Rejects key ↔ key = "" ∨ '/' ∈ key.toList ∨ '\\' ∈ key.toList ∨
        key.toList.head? = some '.') ∧ (Accepts key ↔ ¬Rejects key)) ∧
      (∀ key, Accepts key → OwnsFiles key) ∧
      ∀ (d : Directory) (attempts : List Attempt) (key : String),
        ((Store.loadText key : StoreM Directory String).runOn (d.after attempts)).1 =
          ((Store.loadText key : StoreM Directory String).runOn
            (d.after (attempts.filter Attempt.isCompleted))).1 := by
  refine ⟨fun key => ⟨?_, ?_⟩, fun key h => ownsFiles_of_isKey (accepts_iff.mp h),
    fun d attempts key => ?_⟩
  · rw [rejects_iff, not_isKey_iff]
  · rw [accepts_iff, rejects_iff, Bool.not_eq_false]
  · have hsame : Agrees d d := fun _ => rfl
    exact loadText_congr (hsame.after attempts key)

/-- A key that leads elsewhere is turned away, and a key that looks like the file of another has
files of its own; what an interrupted save has left is not read. -/
theorem keyFiles_disjoint_dots : Rejects "../a" ∧ Accepts "a" ∧ Accepts "a.json.tmp" ∧
    stagingName "a" ≠ fileName "a.json.tmp" ∧
    follow ["home"] (stagingName "a") = ["home", "a.json.tmp"] ∧
    ((Store.loadText "a" : StoreM Directory String).runOn
      (after {} [.completed "a" "1", .interrupted "a" "2"])).1 = .ok "1" := by
  obtain ⟨hkeys, howns, hattempts⟩ := keyFiles_disjoint
  have hrejects : Rejects "../a" := (hkeys _).1.mpr (by decide)
  have ha : Accepts "a" := (hkeys _).2.mpr (mt (hkeys _).1.mp (by decide))
  have htmp : Accepts "a.json.tmp" := (hkeys _).2.mpr (mt (hkeys _).1.mp (by decide))
  refine ⟨hrejects, ha, htmp, (howns _ ha).stagingName_ne_fileName _ htmp,
    (howns _ ha).staging_inside ["home"], ?_⟩
  rw [hattempts]
  exact (howns _ ha).keeps "1" {} rfl

end Directory

end QueryScope
