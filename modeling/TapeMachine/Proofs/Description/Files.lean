import Mathlib.Data.List.Sort
import TapeMachine.Description.File
import TapeMachine.Proofs.Text.ByteOrder

/-! Loading files, and all descriptions in a directory. The names in a directory are different from
each other, so sorting the descriptions leaves nothing to the order in which they are listed, and
each of them is loaded without a look at the others. -/
namespace TapeMachine.Description
open Text

/-- What follows the last dot of a name is its extension, if something stands before that dot. -/
def HasExtension (name extension : String) : Prop :=
  ∃ stem, stem ≠ "" ∧ '.' ∉ extension.toList ∧ name = stem ++ "." ++ extension

/-- What loading the bytes at a path gives. -/
inductive FileResult (path : String) (bytes : ByteArray) : Except LoadError Loaded → Prop where
  | text {text : String} (decoded : bytes = text.toUTF8) :
      FileResult path bytes ((load text).map (⟨path, ·⟩))
  | binary (undecoded : ∀ text : String, bytes ≠ text.toUTF8) : FileResult path bytes
      (.error (.file s!"failed to read file {path}: stream did not contain valid UTF-8"))

/-- One result, by name, for each description that is a file of the directory, and no others. -/
structure DirectoryResults (directory : String) (entries : Directory)
    (results : List (String × Except LoadError Loaded)) : Prop where
  mem_iff (name : String) (r : Except LoadError Loaded) : (name, r) ∈ results ↔
    ∃ bytes, (name, .file bytes) ∈ entries ∧ HasExtension name "tm" ∧
      FileResult (pathIn directory name) bytes r
  increasing : results.Pairwise fun a b =>
    utf8Bytes (pathIn directory a.1) < utf8Bytes (pathIn directory b.1)

section File
variable {name path text : String} {bytes : ByteArray} {r : Except LoadError Loaded}

lemma isDescriptionName_iff : isDescriptionName name ↔ HasExtension name "tm" := by
  simp only [isDescriptionName, Bool.and_eq_true, List.isSuffixOf_iff_suffix, bne_iff_ne]
  constructor
  · intro h
    obtain ⟨⟨stem, hstem⟩, hname⟩ := h
    have heq : name = String.ofList stem ++ "." ++ "tm" := by
      apply String.toList_injective
      simp [← hstem]
    refine ⟨String.ofList stem, fun hempty => hname ?_, by decide, heq⟩
    rw [heq, hempty]
    rfl
  · rintro ⟨stem, hstem, -, rfl⟩
    refine ⟨⟨stem.toList, by simp⟩, fun h => hstem ?_⟩
    have hlist := congrArg String.toList h
    simpa using hlist

lemma load_eq_error (h : 1048576 < text.toUTF8.size) :
    ∃ message, load text = .error (.file message) :=
  ⟨_, if_pos h⟩

lemma load_eq_parse (h : text.toUTF8.size ≤ 1048576) : load text = parse text :=
  if_neg (Nat.not_lt.2 h)

lemma decodeText_toUTF8 (text : String) : decodeText (.ok text.toUTF8) = .ok text := by
  have h : String.fromUTF8? text.toUTF8 = some text := by
    simp only [String.fromUTF8?, String.toUTF8_eq_toByteArray, dif_pos text.isValidUTF8]
    rfl
  simp only [decodeText, h]

lemma decodeText_eq_ok (h : decodeText (.ok bytes) = .ok text) : bytes = text.toUTF8 := by
  simp only [decodeText, String.fromUTF8?] at h
  split_ifs at h
  cases h
  rfl

lemma decodeText_eq_error {e : ReadError} (h : decodeText (.ok bytes) = .error e) :
    e = .invalidUtf8 := by
  simp only [decodeText] at h
  split at h
  · cases h
  · cases h
    rfl

lemma loadFile_toUTF8 (path text : String) : loadFile path (.ok text.toUTF8) = load text := by
  rw [loadFile, decodeText_toUTF8]

lemma FileResult.eq_loadFile (h : FileResult path bytes r) :
    r = (loadFile path (.ok bytes)).map (⟨path, ·⟩) := by
  cases h with
  | text decoded => rw [decoded, loadFile_toUTF8]
  | binary undecoded =>
    rw [loadFile]
    cases hd : decodeText (.ok bytes) with
    | ok text => exact absurd (decodeText_eq_ok hd) (undecoded text)
    | error e =>
      simp only [decodeText_eq_error hd, Except.map, ReadError.message, String.append_assoc]
      rfl

lemma fileResult_loadFile (path : String) (bytes : ByteArray) :
    FileResult path bytes ((loadFile path (.ok bytes)).map (⟨path, ·⟩)) := by
  by_cases h : ∃ text : String, bytes = text.toUTF8
  · obtain ⟨text, rfl⟩ := h
    rw [loadFile_toUTF8]
    exact .text rfl
  · have hbinary : FileResult path bytes _ := .binary (not_exists.1 h)
    rwa [← hbinary.eq_loadFile]

end File

section Directory
variable {directory : String} {entries listed others : Directory}
  {results results' : List (String × Except LoadError Loaded)}

lemma mem_descriptions {name : String} {bytes : ByteArray} :
    (name, bytes) ∈ descriptions entries ↔
      (name, .file bytes) ∈ entries ∧ HasExtension name "tm" := by
  rw [← isDescriptionName_iff, descriptions, List.mem_mergeSort, List.mem_filterMap]
  constructor
  · rintro ⟨⟨name', e⟩, hmem, h⟩
    cases e with
    | directory => cases h
    | file bytes' =>
      obtain ⟨hname, h⟩ := Option.ite_none_right_eq_some.1 h
      cases h
      exact ⟨hmem, hname⟩
  · intro h
    exact ⟨(name, .file bytes), h.1, if_pos h.2⟩

/-- Different names leave no choice to the sort. -/
lemma descriptions_pairwise (names : (entries.map Prod.fst).Nodup) :
    (descriptions entries).Pairwise (·.1 < ·.1) := by
  have hne : (descriptions entries).Pairwise (·.1 ≠ ·.1) := by
    refine List.Pairwise.perm ?_ (List.mergeSort_perm _ _).symm fun h => h.symm
    refine List.Pairwise.filterMap _ ?_ (List.pairwise_map.1 names)
    rintro ⟨name, e⟩ ⟨name', e'⟩ hne a ha b hb
    cases e with
    | directory => cases ha
    | file bytes =>
      cases e' with
      | directory => cases hb
      | file bytes' =>
        obtain ⟨-, ha⟩ := Option.ite_none_right_eq_some.1 ha
        obtain ⟨-, hb⟩ := Option.ite_none_right_eq_some.1 hb
        cases ha
        cases hb
        exact hne
  have hle (files : List (String × ByteArray)) :
      (files.mergeSort fun a b => a.1 ≤ b.1).Pairwise fun a b => decide (a.1 ≤ b.1) := by
    refine List.pairwise_mergeSort (fun a b c hab hbc => ?_) (fun a b => ?_) files
    · exact decide_eq_true (String.le_trans (of_decide_eq_true hab) (of_decide_eq_true hbc))
    · rw [Bool.or_eq_true, decide_eq_true_eq, decide_eq_true_eq]
      exact String.le_total a.1 b.1
  exact (hle _).imp₂ (fun _ _ h hne => lt_of_le_of_ne (of_decide_eq_true h) hne) hne

/-- The names decide how the paths in a directory are ordered. -/
lemma pathIn_lt {name name' : String} (h : name < name') :
    pathIn directory name < pathIn directory name' := by
  unfold pathIn
  split_ifs <;> rw [String.lt_iff_toList_lt] <;> simp only [String.toList_append] <;>
    exact List.append_left_lt (String.lt_iff_toList_lt.1 h)

/-- Results by name, as they come with the descriptions. -/
def namedResults (directory : String) (entries : Directory) :
    List (String × Except LoadError Loaded) :=
  (descriptions entries).map fun (name, bytes) =>
    (name, (loadFile (pathIn directory name) (.ok bytes)).map (⟨pathIn directory name, ·⟩))

lemma loadDirectory_eq (directory : String) (entries : Directory) :
    loadDirectory directory (.ok entries) = (namedResults directory entries).map Prod.snd := by
  rw [loadDirectory, namedResults, List.map_map]
  rfl

lemma directoryResults_namedResults (names : (entries.map Prod.fst).Nodup) :
    DirectoryResults directory entries (namedResults directory entries) where
  mem_iff name r := by
    rw [namedResults, List.mem_map]
    constructor
    · rintro ⟨⟨name, bytes⟩, hmem, h⟩
      cases h
      obtain ⟨hfile, hname⟩ := mem_descriptions.1 hmem
      exact ⟨bytes, hfile, hname, fileResult_loadFile _ _⟩
    · rintro ⟨bytes, hfile, hname, hr⟩
      exact ⟨(name, bytes), mem_descriptions.2 ⟨hfile, hname⟩, by rw [hr.eq_loadFile]⟩
  increasing := by
    rw [namedResults, List.pairwise_map]
    exact (descriptions_pairwise names).imp fun h => utf8Bytes_lt_iff.2 (pathIn_lt h)

/-- Where two directories have the same files, they have the same results in the same order. -/
theorem DirectoryResults.filter_eq (h : DirectoryResults directory entries results)
    (h' : DirectoryResults directory others results') (kept : String → Bool)
    (same : ∀ name bytes, kept name →
      ((name, .file bytes) ∈ entries ↔ (name, .file bytes) ∈ others)) :
    results.filter (kept ·.1) = results'.filter (kept ·.1) := by
  let precedes (a b : String × Except LoadError Loaded) : Prop :=
    utf8Bytes (pathIn directory a.1) < utf8Bytes (pathIn directory b.1)
  have : Std.Irrefl precedes := ⟨fun _ => List.lt_irrefl _⟩
  have : Std.Antisymm precedes := ⟨fun _ _ hab hba => absurd hba (List.lt_asymm hab)⟩
  refine List.Pairwise.eq_of_mem_iff (r := precedes) (h.increasing.filter _)
    (h'.increasing.filter _) fun a => ?_
  obtain ⟨name, r⟩ := a
  simp only [List.mem_filter, h.mem_iff, h'.mem_iff]
  constructor
  · rintro ⟨⟨bytes, hfile, hr⟩, hkept⟩
    exact ⟨⟨bytes, (same name bytes hkept).1 hfile, hr⟩, hkept⟩
  · rintro ⟨⟨bytes, hfile, hr⟩, hkept⟩
    exact ⟨⟨bytes, (same name bytes hkept).2 hfile, hr⟩, hkept⟩

lemma DirectoryResults.of_perm (h : DirectoryResults directory entries results)
    (hperm : listed.Perm entries) : DirectoryResults directory listed results where
  mem_iff name r := by
    rw [h.mem_iff]
    simp only [hperm.mem_iff]
  increasing := h.increasing

lemma DirectoryResults.unique (h : DirectoryResults directory entries results)
    (h' : DirectoryResults directory entries results') : results = results' := by
  have heq := h.filter_eq h' (fun _ => true) fun _ _ _ => Iff.rfl
  rwa [List.filter_true, List.filter_true] at heq

/-- Loading a directory gives one result for each description in it, by itself and in the order of
the paths, in whatever order the directory is listed. A change to other files leaves the results for
the rest as they are, in the same order. -/
theorem directory_loaded (directory : String) (entries : Directory)
    (names : (entries.map Prod.fst).Nodup) :
    (∃ results, DirectoryResults directory entries results ∧
      (∀ listed : Directory, listed.Perm entries →
        loadDirectory directory (.ok listed) = results.map Prod.snd) ∧
      ∀ (others : Directory) results', DirectoryResults directory others results' →
        ∀ kept : String → Bool,
          (∀ name bytes, kept name →
            ((name, .file bytes) ∈ entries ↔ (name, .file bytes) ∈ others)) →
          results.filter (kept ·.1) = results'.filter (kept ·.1)) ∧
    ∀ text : String,
      (1048576 < text.toUTF8.size → ∃ message, load text = .error (.file message)) ∧
      (text.toUTF8.size ≤ 1048576 → load text = parse text) := by
  have hresults : DirectoryResults directory entries (namedResults directory entries) :=
    directoryResults_namedResults names
  refine ⟨⟨_, hresults, fun listed hperm => ?_, ?_⟩,
    fun text => ⟨load_eq_error, load_eq_parse⟩⟩
  · have hnames : (listed.map Prod.fst).Nodup := (hperm.map Prod.fst).nodup_iff.2 names
    have hlisted : DirectoryResults directory listed (namedResults directory listed) :=
      directoryResults_namedResults hnames
    rw [loadDirectory_eq, hlisted.unique (hresults.of_perm hperm)]
  · intro others results' hothers kept same
    exact hresults.filter_eq hothers kept same

end Directory

/-- A description, bytes that are no text, a hidden file and a directory named as a description. -/
def mixed : Directory :=
  [("b.tm", .file "s [> -> h [> R".toUTF8), ("a.tm", .file ⟨#[255]⟩), (".tm", .file "".toUTF8),
    ("nested.tm", .directory [])]

theorem directory_loaded_mixed :
    (mixed.map Prod.fst).Nodup ∧ ∃ results, DirectoryResults "machines" mixed results ∧
      loadDirectory "machines" (.ok mixed.reverse) = results.map Prod.snd ∧
      ("b.tm", (load "s [> -> h [> R").map (⟨pathIn "machines" "b.tm", ·⟩)) ∈ results ∧
      ∀ r, ("nested.tm", r) ∉ results := by
  have names : (mixed.map Prod.fst).Nodup := by decide
  obtain ⟨⟨results, hresults, hlisted, -⟩, -⟩ := directory_loaded "machines" mixed names
  refine ⟨names, results, hresults, hlisted _ (List.reverse_perm _), ?_, fun r hr => ?_⟩
  · have hname : HasExtension "b.tm" "tm" := ⟨"b", by decide, by decide, rfl⟩
    exact (hresults.mem_iff _ _).2 ⟨_, List.mem_cons_self, hname, .text rfl⟩
  · obtain ⟨bytes, hfile, -⟩ := (hresults.mem_iff _ _).1 hr
    simp [mixed] at hfile

end TapeMachine.Description
