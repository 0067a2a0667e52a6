import Mathlib.Data.List.Permutation
import TextArchive.Proofs.File.Canonical
import TextArchive.Record

/-!
Records of one file by different paths. What a record says of the contents of its file depends on
the file alone, and so does the path that is kept for it, as long as the system can be asked about
the entries on the way: then that path is absolute, free of links, and the one that is kept when a
record is built from it. Otherwise the absolute form of the path is kept.
-/

set_option autoImplicit false
set_option relaxedAutoImplicit false

namespace TextArchive.RecordBuilder

open TextArchive.File (Disk Location Path)

/-- What a record tells of a path: the text of the file, or why it cannot be read, and the last
name. -/
structure Tells (b : RecordBuilder) (disk : Disk) (p : Path) (built : BuiltRecord) : Prop where
  failed : ∀ e, disk.read p = .error e →
    built.readFailure = some ⟨p, e⟩ ∧ built.record.content = "[error reading file: " ++ e.message ++ "]"
  read : ∀ bytes, disk.read p = .ok bytes → built.readFailure = none ∧
    built.record.content = String.ofList (Text.Utf8.decodeDropping (capped b.limit bytes))
  tag : built.record.tag = b.tag
  live : built.record.deletedAt = none
  title : built.record.title = (p.fileName?.map fun name => (⟨name⟩ : Path).display).getD ""

/-- Records that differ in their titles and source paths at most, with failures that differ in their
paths. -/
structure OfOneFile (built built' : BuiltRecord) : Prop where
  content : built'.record.content = built.record.content
  failure : built'.readFailure.map (·.error) = built.readFailure.map (·.error)
  tag : built'.record.tag = built.record.tag

section Build

variable (b : RecordBuilder) {disk : Disk}

private theorem tells_build (p : Path) : Tells b disk p (b.build disk p) where
  failed e error := by
    have text : b.readText disk p = .error ⟨p, e⟩ := by simp only [readText, error]
    constructor <;> simp only [build, text]
    rfl
  read bytes ok := by
    have text : b.readText disk p =
      .ok (String.ofList (Text.Utf8.decodeDropping (capped b.limit bytes))) := by
      simp only [readText, ok]
    constructor <;> simp only [build, text]
  tag := rfl
  live := rfl
  title := rfl

private theorem ofOneFile_build {p q : Path} {l : Location} (reached : disk.resolve p = .ok l)
    (reached' : disk.resolve q = .ok l) :
    OfOneFile (b.build disk p) (b.build disk q) := by
  have same : disk.read q = disk.read p := by simp only [Disk.read, Disk.lookUp, reached, reached']
  cases read : disk.read p with
  | error e =>
    have error := (tells_build b p).failed e read
    have error' := (tells_build b q).failed e (same.trans read)
    exact ⟨error'.2.trans error.2.symm, by rw [error.1, error'.1]; rfl, rfl⟩
  | ok bytes =>
    have ok := (tells_build b p).read bytes read
    have ok' := (tells_build b q).read bytes (same.trans read)
    exact ⟨ok'.2.trans ok.2.symm, by rw [ok.1, ok'.1], rfl⟩

private theorem sourcePathOf_of_walk {p : Path} {l : Location} (reached : disk.walk p = .ok l)
    (nameable : disk.Nameable p) :
    sourcePathOf disk p = .ofLocation l := by
  have canonical : disk.canonical? p = some (.ofLocation l) :=
    Disk.canonical?_eq_some.mpr ⟨nameable, l, reached, rfl⟩
  rw [sourcePathOf, canonical]
  rfl

private theorem sourcePath_of_lost {p form : Path}
    (lost : ∀ l, disk.walk p = .ok l → ¬ disk.Nameable p)
    (absolute : p.absolute? disk.workingDirectory = some form) :
    (b.build disk p).record.sourcePath = form.display := by
  have none : disk.canonical? p = none := by
    cases canonical : disk.canonical? p with
    | none => rfl
    | some c =>
      obtain ⟨nameable, l, reached, -⟩ := Disk.canonical?_eq_some.mp canonical
      exact absurd nameable (lost l reached)
  have kept : sourcePathOf disk p = form := by
    rw [sourcePathOf, none, Option.none_or, absolute]
    rfl
  exact congrArg Path.display kept

/-- The path that is kept for the place of a file. -/
structure KeptFor (b : RecordBuilder) (disk : Disk) (l : Location) (built : BuiltRecord) :
    Prop where
  shown : built.record.sourcePath = (Path.ofLocation l).display
  absolute : (Path.ofLocation l).isAbsolute = true
  names : (Path.ofLocation l).segments = l
  above : ∀ place, place <+: l → place ≠ l → disk.node? place = some .directory
  there : ∃ node, disk.node? l = some node ∧ ∀ target, node ≠ .link target
  again : ∀ text, Path.ofLocation l = .ofString text →
    (b.build disk (.ofString built.record.sourcePath)).record.sourcePath = built.record.sourcePath

variable (tree : disk.Tree)
include tree

private theorem keptFor_build {p : Path} {l : Location} (reached : disk.walk p = .ok l)
    (nameable : disk.Nameable p) :
    KeptFor b disk l (b.build disk p) := by
  have kept : (b.build disk p).record.sourcePath = (Path.ofLocation l).display :=
    congrArg Path.display (sourcePathOf_of_walk reached nameable)
  obtain ⟨node, there, no_link⟩ := tree.node?_of_walk reached
  refine ⟨kept, Path.isAbsolute_ofLocation, ?_, ?_, ⟨node, there, no_link⟩, ?_⟩
  · exact Path.segments_ofLocation fun name member => (tree.names there name member).1.toIsSegment
  · exact fun place above other => tree.directory_above there above other
  · intro text valid
    have shown : Path.ofString (b.build disk p).record.sourcePath = .ofLocation l := by
      rw [kept, valid, Path.display_ofString]
    have same : sourcePathOf disk (.ofLocation l) = .ofLocation l := by
      rw [sourcePathOf, tree.canonical?_ofLocation there no_link]
      rfl
    rw [shown, kept]
    exact congrArg Path.display same

end Build

/-- A record tells of its path what reading it gives. By all paths that lead to the same file,
records differ in their titles at most, if the system can be asked about the entries on the way: the
path that is kept is then absolute, goes over directories alone and ends at no link, and it is kept
again when a record is built from it. A path that does not lead to anything, or on whose way there
is an entry that the system cannot be asked about, is kept in its absolute form. -/
theorem built_by_any_path (b : RecordBuilder) {disk : Disk} (tree : disk.Tree) :
    (∀ p, Tells b disk p (b.build disk p)) ∧
    (∀ p q l, disk.resolve p = .ok l → disk.resolve q = .ok l →
      OfOneFile (b.build disk p) (b.build disk q) ∧
      (disk.Nameable p → disk.Nameable q →
        (b.build disk q).record.sourcePath = (b.build disk p).record.sourcePath)) ∧
    (∀ p l, disk.walk p = .ok l → disk.Nameable p → KeptFor b disk l (b.build disk p)) ∧
    ∀ p : Path, p.bytes ≠ [] → (∀ l, disk.walk p = .ok l → ¬ disk.Nameable p) →
      ∃ form, p.absolute? disk.workingDirectory = some form ∧
      (b.build disk p).record.sourcePath = form.display := by
  refine ⟨tells_build b, fun p q l reached reached' => ⟨ofOneFile_build b reached reached',
    fun first second => ?_⟩,
    fun p l reached nameable => keptFor_build b tree reached nameable, fun p filled lost => ?_⟩
  · have kept := keptFor_build b tree (Disk.walk_of_resolve reached) first
    have kept' := keptFor_build b tree (Disk.walk_of_resolve reached') second
    rw [kept.shown, kept'.shown]
  · have not_empty : p.bytes.isEmpty = false := by simpa using filled
    obtain ⟨form, absolute⟩ : ∃ form, p.absolute? disk.workingDirectory = some form := by
      simp [Path.absolute?, not_empty]
    exact ⟨form, absolute, sourcePath_of_lost b lost absolute⟩

def folderWithLink : Disk :=
  ⟨[([Text.Utf8.ofString "w"], .directory), ([Text.Utf8.ofString "w",
    Text.Utf8.ofString "a"], .directory),
    ([Text.Utf8.ofString "w", Text.Utf8.ofString "a", Text.Utf8.ofString "x"],
      .file (.bytes (Text.Utf8.ofString "hi"))),
    ([Text.Utf8.ofString "w", Text.Utf8.ofString "l"],
      .link (Text.Utf8.ofString "a"))], [Text.Utf8.ofString "w"]⟩

/-- A file by a link to its directory, by its own name after going down and up, and by the path that
is kept for it; and a path to nothing. -/
theorem built_by_any_path_over_link :
    let b : RecordBuilder := ⟨"docs", some 1⟩
    let l : Location := [[119], [97], [120]]
    let byLink := b.build folderWithLink (.ofString "l/x")
    let byName := b.build folderWithLink (.ofString "./a/../a/x")
    folderWithLink.Tree ∧ folderWithLink.resolve (.ofString "l/x") = .ok l ∧
      folderWithLink.resolve (.ofString "./a/../a/x") = .ok l ∧
        folderWithLink.Nameable (.ofString "l/x") ∧
      folderWithLink.Nameable (.ofString "./a/../a/x") ∧ (Path.ofString "no").bytes ≠ [] ∧
      (∀ l, folderWithLink.walk (.ofString "no") ≠ .ok l) ∧
      byLink.readFailure = none ∧ byLink.record = ⟨"x", "/w/a/x", "h", "docs", none⟩ ∧
      byName.record.sourcePath = byLink.record.sourcePath ∧
        byName.record.content = byLink.record.content ∧
      (b.build folderWithLink (.ofString byLink.record.sourcePath)).record.sourcePath
        = byLink.record.sourcePath ∧
      (b.build folderWithLink (.ofString "no")).record.sourcePath = "/w/no" := by
  intro b l byLink byName
  have tree : folderWithLink.Tree := by decide +kernel
  have reached : folderWithLink.resolve (.ofString "l/x") = .ok [[119], [97], [120]] := by cbv
  have reached' : folderWithLink.resolve (.ofString "./a/../a/x") = .ok [[119], [97], [120]] := by
    cbv
  have entries : folderWithLink.asked Disk.linkLimit (folderWithLink.startOf (.ofString "l/x"))
      (Disk.steps (Path.ofString "l/x").bytes) =
        ["/w/l", "/w/a", "/w/a/x"].map Path.ofString := by cbv
  have entries' : folderWithLink.asked Disk.linkLimit
    (folderWithLink.startOf (.ofString "./a/../a/x"))
      (Disk.steps (Path.ofString "./a/../a/x").bytes) = ["/w/a/", "/w/a",
        "/w/a/x"].map Path.ofString := by cbv
  have nameable : folderWithLink.Nameable (.ofString "l/x") := by
    rw [Disk.Nameable, entries]
    decide +kernel
  have nameable' : folderWithLink.Nameable (.ofString "./a/../a/x") := by
    rw [Disk.Nameable, entries']
    decide +kernel
  have nowhere : ∀ l, folderWithLink.walk (.ofString "no") ≠ .ok l := by
    have missing : folderWithLink.walk (.ofString "no") = .error .notFound := by cbv
    simp [missing]
  obtain ⟨tells, alike, kept, lost⟩ := built_by_any_path b tree
  have here := tells (.ofString "l/x")
  obtain ⟨same, source⟩ := alike _ _ _ reached reached'
  have keeps := kept _ _ (Disk.walk_of_resolve reached) nameable
  have read : folderWithLink.read (.ofString "l/x") = .ok [104, 105] := by cbv
  obtain ⟨no_failure, text⟩ := here.read _ read
  have place : Path.ofLocation [[119], [97], [120]] = .ofString "/w/a/x" := by decide +kernel
  have shown : byLink.record.sourcePath = "/w/a/x" := by
    rw [keeps.shown, place, Path.display_ofString]
  have content : byLink.record.content = "h" := text.trans (by decide +kernel)
  have title : byLink.record.title = "x" := here.title.trans (by decide +kernel)
  have whole : byLink.record = ⟨"x", "/w/a/x", "h", "docs", none⟩ := by
    have tag : byLink.record.tag = "docs" := here.tag
    have live : byLink.record.deletedAt = none := here.live
    rw [← title, ← shown, ← content, ← tag, ← live]
  obtain ⟨form, absolute, elsewhere⟩ := lost (.ofString "no") (by decide +kernel) fun l found =>
    absurd found (nowhere l)
  have named : Path.absolute? folderWithLink.workingDirectory (.ofString "no") = some
    (.ofString "/w/no") := by
    decide +kernel
  rw [named] at absolute
  cases absolute
  exact ⟨tree, reached, reached', nameable, nameable', by decide +kernel,
    nowhere, no_failure, whole, source nameable nameable', same.content, keeps.again _ place,
      elsewhere.trans (Path.display_ofString _)⟩

/-- A file whose absolute path has 4096 bytes, by its name from the directory above it and by going
up and down again: two paths that lead to it, for which different ones are kept. -/
theorem source_path_differs_at_long_place :
    let name : List UInt8 := List.replicate 255 97
    let place (depth : Nat) : Location := List.replicate depth name
    let disk : Disk := ⟨((List.range 15).map fun depth => (place (depth + 1), .directory)) ++
      [(place 16, .file (.bytes []))], place 15⟩
    let p : Path := ⟨name⟩
    let q : Path := ⟨[46, 46, 47] ++ name ++ 47 :: name⟩
    let b : RecordBuilder := ⟨"docs", none⟩
    disk.Tree ∧ disk.resolve p = .ok (place 16) ∧ disk.resolve q = .ok (place 16) ∧
      (b.build disk p).record.sourcePath ≠ (b.build disk q).record.sourcePath := by
  intro name place disk p q b
  have tree : disk.Tree := by decide +kernel
  have proper : File.ProperName name := by decide +kernel
  have nodes : disk.node? (place 14) = some .directory ∧
    disk.node? (place 14 ++ [name]) = some .directory ∧
      disk.node? (place 15) = some .directory ∧ disk.node? (place 15 ++ [name]) = some
        (.file (.bytes [])) := by
    decide +kernel
  have places : place 14 ++ [name] = place 15 ∧ place 15 ++ [name] = place 16 ∧
    (place 15).dropLast = place 14 := by
    decide +kernel
  have steps_p : Disk.steps p.bytes = [name] := by decide +kernel
  have steps_q : Disk.steps q.bytes = [File.above, name, name] := by decide +kernel
  have start : disk.startOf p = place 15 ∧ disk.startOf q = place 15 := by decide +kernel
  have accepted : p.refusal? = none ∧ q.refusal? = none := by decide +kernel
  have long : ¬ (Path.ofLocation (place 16)).bytes.length < Disk.pathLimit := by decide +kernel
  have plain : p.plainSegments = [name] ∧ q.plainSegments = [File.above, name, name] := by
    decide +kernel
  have opens : p.absoluteStart (place 15) = .ofLocation (place 15) ∧
    q.absoluteStart (place 15) = .ofLocation (place 15) :=
    ⟨rfl, rfl⟩
  have ends : p.endsInSlash = false ∧ q.endsInSlash = false := by decide +kernel
  have filled : p.bytes.isEmpty = false ∧ q.bytes.isEmpty = false := by decide +kernel
  have lengths : ([name].foldl Path.join (.ofLocation (place 15))).bytes.length ≠
    ([File.above, name, name].foldl Path.join (.ofLocation (place 15))).bytes.length :=
      by decide +kernel
  have texts : ∀ other ∈ [File.above, name, name] ++ place 15, other = name ∨
    other = File.above := by decide +kernel
  have name_text : name = Text.Utf8.encode (List.replicate 255 'a') := by decide +kernel
  have above_text : File.above = Text.Utf8.encode ['.', '.'] := by decide +kernel
  have starts : disk.workingDirectory = place 15 := rfl
  clear_value disk place name p q
  obtain ⟨outer, inner, directory, file⟩ := nodes
  obtain ⟨place_15, place_16, back⟩ := places
  have up : disk.turn (place 15) File.above = .on (place 14) := back ▸ Disk.turn_above directory
  have down : disk.turn (place 14) name = .on (place 15) :=
    place_15 ▸ Disk.turn_entry outer proper inner nofun
  have last : disk.turn (place 15) name = .on (place 16) :=
    place_16 ▸ Disk.turn_entry directory proper file nofun
  have reached : disk.resolve p = .ok (place 16) := by
    rw [Disk.resolve, Disk.locate_eq, accepted.1, steps_p]
    show disk.descend _ _ (disk.startOf p) _ = _
    rw [start.1, Disk.descend_cons, last]
    exact Disk.descend_nil _ _ _
  have reached' : disk.resolve q = .ok (place 16) := by
    rw [Disk.resolve, Disk.locate_eq, accepted.2, steps_q]
    show disk.descend _ _ (disk.startOf q) _ = _
    rw [start.2, Disk.descend_cons, up]
    simp only [Disk.descend_cons, down, last, Disk.descend_nil]
  have absolute : p.absolute? disk.workingDirectory = some
    ([name].foldl Path.join (.ofLocation (place 15))) := by
    simp [Path.absolute?, starts, filled, plain, opens, ends]
  have absolute' : q.absolute? disk.workingDirectory =
      some ([File.above, name, name].foldl Path.join (.ofLocation (place 15))) := by
    simp [Path.absolute?, starts, filled, plain, opens, ends]
  have lost : ¬ disk.Nameable p := by
    intro nameable
    refine long (nameable _ ?_)
    rw [steps_p, start.1, Disk.asked_cons, last]
    simp [proper.not_here, proper.not_above, Disk.asksForDirectory]
  have lost' : ¬ disk.Nameable q := by
    intro nameable
    refine long (nameable _ ?_)
    rw [steps_q, start.2, Disk.asked_cons, up]
    simp [Disk.asked_cons, down, last, proper.not_here, proper.not_above, Disk.asksForDirectory]
  refine ⟨tree, reached, reached', fun same => lengths ?_⟩
  rw [sourcePath_of_lost b (fun _ _ => lost) absolute,
    sourcePath_of_lost b (fun _ _ => lost') absolute'] at same
  have encoded : ∀ other ∈ [File.above, name, name] ++ place 15, ∃ cs,
    other = Text.Utf8.encode cs := by
    intro other member
    rcases texts other member with rfl | rfl
    · exact ⟨_, name_text⟩
    · exact ⟨_, above_text⟩
  have top : ∃ cs, (⟨[File.slash]⟩ : Path).bytes = Text.Utf8.encode cs := ⟨['/'], by decide +kernel⟩
  have home := Path.exists_encode_joined top fun other member =>
    encoded other (List.mem_append_right _ member)
  refine congrArg List.length (Path.bytes_of_display ?_ ?_ same)
  · refine Path.exists_encode_joined home fun other member =>
      encoded other (List.mem_append_left _ ?_)
    exact List.mem_cons_of_mem _ (List.mem_cons_of_mem _ member)
  · exact Path.exists_encode_joined home fun other member =>
      encoded other (List.mem_append_left _ member)

end TextArchive.RecordBuilder
