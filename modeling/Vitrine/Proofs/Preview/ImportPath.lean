import Vitrine.Proofs.Files.RealPath
import Vitrine.Proofs.Preview.Generation

/-!
# Import paths

An entry file imports a component by the way from its own directory to the component, first up and
then down, and without the extension of the component's name. Whoever walks that way and puts the
extension back arrives at the component.
-/
namespace Vitrine

namespace Path

/-! ## Cuts at the last dot -/

variable {stem behind cs : List Char}

theorem splitAtLastDot_of_notMem (h : '.' ∉ cs) : splitAtLastDot cs = none := by
  have hall : cs.reverse.takeWhile (· ≠ '.') = cs.reverse := by
    rw [List.takeWhile_eq_self_iff]
    intro c hc
    have hne : c ≠ '.' := fun he => h (he ▸ List.mem_reverse.mp hc)
    simpa using hne
  rw [splitAtLastDot, hall]
  simp

theorem splitAtLastDot_append (h : '.' ∉ behind) :
    splitAtLastDot (stem ++ '.' :: behind) = some (stem, '.' :: behind) := by
  have hcut : (stem ++ '.' :: behind).reverse.takeWhile (· ≠ '.') = behind.reverse := by
    rw [List.reverse_append, List.reverse_cons, List.append_assoc, List.takeWhile_append_of_pos]
    · simp
    · intro c hc
      have hne : c ≠ '.' := fun he => h (he ▸ List.mem_reverse.mp hc)
      simpa using hne
  have hlength : (stem ++ '.' :: behind).length - behind.length - 1 = stem.length := by
    rw [List.length_append, List.length_cons]
    omega
  have hlt : behind.length < (stem ++ '.' :: behind).length := by
    rw [List.length_append, List.length_cons]
    omega
  rw [splitAtLastDot, hcut, List.reverse_reverse]
  dsimp only
  rw [if_pos hlt, hlength, List.take_left, List.drop_left]

theorem notMem_or_last (cs : List Char) :
    '.' ∉ cs ∨ ∃ stem behind, '.' ∉ behind ∧ cs = stem ++ '.' :: behind := by
  by_cases hdot : '.' ∈ cs
  · obtain ⟨front, rest, heq, hfront⟩ := List.eq_append_cons_of_mem (List.mem_reverse.mpr hdot)
    refine Or.inr ⟨rest.reverse, front.reverse, fun h => hfront (List.mem_reverse.mp h), ?_⟩
    rw [← List.reverse_reverse cs, heq, List.reverse_append, List.reverse_cons, List.append_assoc]
    rfl
  · exact Or.inl hdot

/-- The extension of a name: what its last dot begins, unless only dots are in front of it. -/
def extension (name : List Char) : List Char :=
  match splitAtLastDot name with
  | some (stem, behind) => if stem.all (· = '.') then [] else behind
  | none => []

/-- The same path without double dots: each leads back over the name in front of it. -/
def normal (p : Path) : Path := ⟨p.root, Store.normalize [] p.parts⟩

end Path

namespace Store

theorem normalize_append (place : Place) (names more : List String) :
    normalize place (names ++ more) = normalize (normalize place names) more := by
  induction names generalizing place with
  | nil => rfl
  | cons name names ih => exact ih _

theorem normalize_names {place : Place} {names : List String} (h : ".." ∉ names) :
    normalize place names = place ++ names := by
  induction names generalizing place with
  | nil => exact (List.append_nil place).symm
  | cons name names ih =>
    rw [List.mem_cons, not_or] at h
    rw [normalize, if_neg (Ne.symm h.1), ih h.2, List.append_assoc, List.singleton_append]

/-- As many double dots as there are names lead back over the names. -/
theorem normalize_up (place : Place) (names : List String) :
    normalize (place ++ names) (List.replicate names.length "..") = place := by
  induction names using List.reverseRecOn with
  | nil => exact List.append_nil place
  | append_singleton names name ih =>
    rw [List.length_append, List.length_singleton, List.replicate_succ, normalize, if_pos rfl,
      ← List.append_assoc, List.dropLast_concat, ih]

end Store

namespace Preview

open Work

/-- Only dots, or a name behind dots. -/
theorem dots_or_name (stem : List Char) : (∀ c ∈ stem, c = '.') ∨
    ∃ dots c rest, (∀ d ∈ dots, d = '.') ∧ c ≠ '.' ∧ stem = dots ++ c :: rest := by
  induction stem with
  | nil => exact Or.inl (List.forall_mem_nil _)
  | cons d stem ih =>
    by_cases hd : d = '.'
    · rcases ih with hall | ⟨dots, c, rest, hdots, hc, rfl⟩
      · exact Or.inl (List.forall_mem_cons.mpr ⟨hd, hall⟩)
      · exact Or.inr ⟨d :: dots, c, rest, List.forall_mem_cons.mpr ⟨hd, hdots⟩, hc, rfl⟩
    · exact Or.inr ⟨[], d, stem, List.forall_mem_nil _, hd, rfl⟩

theorem takeWhile_dots {dots rest : List Char} (hdots : ∀ d ∈ dots, d = '.')
    (hrest : rest.head? ≠ some '.') : (dots ++ rest).takeWhile (· = '.') = dots := by
  refine Text.takeWhile_front (fun d hd => decide_eq_true (hdots d hd)) fun c hc => ?_
  exact decide_eq_false fun he => hrest (he ▸ hc)

/-- A name is its extension behind what is left without it. -/
theorem dropSuffix_append (name : List Char) : dropSuffix name ++ Path.extension name = name := by
  rw [dropSuffix, Path.extension]
  rcases Path.notMem_or_last name with hdot | ⟨stem, behind, hbehind, rfl⟩
  · have hdrop : '.' ∉ name.drop (name.takeWhile (· = '.')).length := fun h =>
      hdot (List.mem_of_mem_drop h)
    rw [Path.splitAtLastDot_of_notMem hdot, Path.splitAtLastDot_of_notMem hdrop, List.append_nil]
  · rw [Path.splitAtLastDot_append hbehind]
    dsimp only
    rcases dots_or_name stem with hall | ⟨dots, c, rest, hdots, hc, rfl⟩
    · have htake : ((stem ++ ['.']) ++ behind).takeWhile (· = '.') = stem ++ ['.'] := by
        refine takeWhile_dots (fun d hd => ?_) fun h => hbehind (List.mem_of_mem_head? h)
        rcases List.mem_append.mp hd with hd | hd
        · exact hall d hd
        · exact List.mem_singleton.mp hd
      rw [if_pos (by simpa using hall), List.append_cons, htake, List.drop_left,
        Path.splitAtLastDot_of_notMem hbehind, List.append_nil]
    · have htake : (dots ++ (c :: rest ++ '.' :: behind)).takeWhile (· = '.') = dots :=
        takeWhile_dots hdots (by simpa using hc)
      rw [if_neg (by simp [hc]), List.append_assoc, htake, List.drop_left,
        Path.splitAtLastDot_append hbehind]
      simp

/-! ## Ways -/

/-- The way from a directory goes up from what the two paths do not share and down to the other. -/
theorem relativeParts_eq (directory parts : List String) : ∃ shared above below,
    directory = shared ++ above ∧ parts = shared ++ below ∧
      relativeParts directory parts = List.replicate above.length ".." ++ below := by
  fun_induction relativeParts directory parts with
  | case1 ds p ps ih =>
    obtain ⟨shared, above, below, hds, hps, heq⟩ := ih
    exact ⟨p :: shared, above, below, by rw [hds]; rfl, by rw [hps]; rfl, heq⟩
  | case2 d ds p ps hne =>
    exact ⟨[], d :: ds, p :: ps, rfl, rfl, by rw [List.map_const']⟩
  | case3 ds ps h =>
    exact ⟨[], ds, ps, rfl, rfl, by rw [List.map_const']⟩

/-- Going the way from a directory leads to the other end. -/
theorem normalize_relativeParts {directory parts : List String} (hd : ".." ∉ directory)
    (hp : ".." ∉ parts) :
    Store.normalize [] (directory ++ relativeParts directory parts) = parts := by
  obtain ⟨shared, above, below, rfl, rfl, hway⟩ := relativeParts_eq directory parts
  have hbelow : ".." ∉ below := fun h => hp (List.mem_append_right _ h)
  rw [hway, Store.normalize_append, Store.normalize_names hd, Store.normalize_append]
  change Store.normalize (Store.normalize (shared ++ above) _) below = _
  rw [Store.normalize_up, Store.normalize_names hbelow]

/-- The way ends in the last name, unless it only goes up. -/
theorem relativeParts_concat {directory parts : List String} (hp : ¬ parts <+: directory) :
    ∃ front, relativeParts directory parts = front ++ [parts.getLast?.getD ""] := by
  obtain ⟨shared, above, below, rfl, rfl, hway⟩ := relativeParts_eq directory parts
  rcases List.eq_nil_or_concat below with rfl | ⟨front, name, rfl⟩
  · rw [List.append_nil] at hp
    exact absurd (List.prefix_append shared above) hp
  · refine ⟨List.replicate above.length ".." ++ front, ?_⟩
    rw [hway]
    simp

theorem isPart_relativeParts {directory parts : List String} (hp : ∀ name ∈ parts, Path.IsPart name) :
    ∀ name ∈ relativeParts directory parts, Path.IsPart name := by
  obtain ⟨shared, above, below, rfl, rfl, hway⟩ := relativeParts_eq directory parts
  intro name hname
  rw [hway] at hname
  rcases List.mem_append.mp hname with hup | hbelow
  · rw [List.eq_of_mem_replicate hup]
    decide
  · exact hp name (List.mem_append_right _ hbelow)

theorem mapLast_concat (f : List Char → List Char) (front : List String) (name : String) :
    mapLast f (front ++ [name]) = front ++ [String.ofList (f name.toList)] := by
  induction front with
  | nil => rfl
  | cons p front ih =>
    have hcons : mapLast f (p :: (front ++ [name])) = p :: mapLast f (front ++ [name]) := by
      cases front <;> rfl
    rw [List.cons_append, hcons, ih, List.cons_append]

/-! ## Import paths -/

variable {entry component here there : Path}

/-- An import path with the extension of the component behind it is the way to the component. -/
theorem modulePath_append (hbelow : ¬ there.parts <+: here.parent.parts) : ∃ text,
    text ++ String.ofList (Path.extension there.name.toList) =
        Path.joinParts (relativeParts here.parent.parts there.parts) ∧
      (modulePath here there = text ∧ "../".toList <+: text.toList ∨
        modulePath here there = "./" ++ text) := by
  obtain ⟨front, hway⟩ := relativeParts_concat hbelow
  obtain ⟨before, hbefore⟩ := Path.joinParts_concat front
  have hname : there.parts.getLast?.getD "" = there.name := rfl
  rw [hname] at hway
  refine ⟨before ++ String.ofList (dropSuffix there.name.toList), ?_, ?_⟩
  · rw [hway, hbefore, String.append_assoc, ← String.ofList_append, dropSuffix_append,
      String.ofList_toList]
  · have hmodule : modulePath here there =
        if "../".toList.isPrefixOf (Path.joinParts (mapLast dropSuffix (front ++ [there.name]))).toList
        then Path.joinParts (mapLast dropSuffix (front ++ [there.name]))
        else "./" ++ Path.joinParts (mapLast dropSuffix (front ++ [there.name])) := by
      rw [modulePath, hway]
      cases front <;> rfl
    rw [hmodule, mapLast_concat, hbefore]
    split
    · next hup => exact Or.inl ⟨rfl, List.isPrefixOf_iff_prefix.mp hup⟩
    · exact Or.inr rfl

/-- The import path leads from the directory of the entry file to the component, where neither is
named by its real path. -/
theorem modulePath_arrives (hhere : here.IsResolved) (hthere : there.IsResolved)
    (hbelow : ¬ there.parts <+: here.parent.parts) :
    ("./".toList <+: (modulePath here there).toList ∨
        "../".toList <+: (modulePath here there).toList) ∧
      (here.parent.join (Path.ofText (modulePath here there ++
        String.ofList (Path.extension there.name.toList)))).normal = there := by
  have hparts : ∀ name ∈ relativeParts here.parent.parts there.parts, Path.IsPart name :=
    isPart_relativeParts hthere.written
  have hup : ".." ∉ here.parent.parts := fun h => hhere.up (List.mem_of_mem_dropLast h)
  -- However the import path begins, what it leads to is the way between the two.
  have harrives : (here.parent.join
      ⟨.relative, relativeParts here.parent.parts there.parts⟩).normal = there := by
    have hroot : here.root = there.root := hhere.absolute.trans hthere.absolute.symm
    show (⟨here.root, Store.normalize [] (here.parent.parts ++ _)⟩ : Path) = there
    rw [normalize_relativeParts hup hthere.up, hroot]
  obtain ⟨text, htext, ⟨hmodule, hfront⟩ | hmodule⟩ := modulePath_append hbelow
  · rw [hmodule, htext, Path.ofText_joinParts hparts]
    exact ⟨Or.inr hfront, harrives⟩
  · rw [hmodule, String.append_assoc, htext, Path.ofText_dot_slash hparts]
    refine ⟨Or.inl ?_, harrives⟩
    rw [String.toList_append]
    exact List.prefix_append _ _

/-- Whatever files an entry file and a component are given by, following links: the import path
begins with a dot or with two, and seen from the directory of the entry file it leads to the
component, once the extension is put back. -/
theorem importPath_arrives {h : Host} (hentry : (h.absolute entry).IsWritten)
    (hcomponent : (h.absolute component).IsWritten) (hhere : h.realPath entry = .ok here)
    (hthere : h.realPath component = .ok there) (hbelow : ¬ there.parts <+: here.parent.parts) :
    ∃ text, (importPath entry component).exec h = (.ok text, h) ∧
      ("./".toList <+: text.toList ∨ "../".toList <+: text.toList) ∧
        (here.parent.join (Path.ofText (text ++
          String.ofList (Path.extension there.name.toList)))).normal = there := by
  have hhere' : here.IsResolved := by
    rw [(Host.realPath_eq_ok hhere).2]
    exact Store.realPath_isResolved hentry
  have hthere' : there.IsResolved := by
    rw [(Host.realPath_eq_ok hthere).2]
    exact Store.realPath_isResolved hcomponent
  exact ⟨_, exec_importPath hthere hhere, modulePath_arrives hhere' hthere' hbelow⟩

/-! ## A layout -/

/-- A host where the components lie in a directory with a dot in its name, behind a link. -/
def linkedHost : Host where
  store := ⟨[(["w"], .directory 0o755 (.counted 0)), (["w", "src"], .directory 0o755 (.counted 0)),
    (["w", "lib"], .directory 0o755 (.counted 0)), (["w", "lib", "v1.2"], .directory 0o755 (.counted 0)),
    (["w", "src", "ui"], .link "../lib/v1.2")], 1⟩
  history := []
  workingDirectory := ⟨.absolute, ["w"]⟩
  logs := []
  issued := 0
  processId := 1
  running := []
  now := ""

def linkedEntry : Path := Path.ofText "src/index.tsx"

def linkedComponent : Path := Path.ofText "src/ui/../v1.2/..Box.min.tsx"

/-- Where the entry file is found. -/
def linkedHere : Path := ⟨.absolute, ["w", "src", "index.tsx"]⟩

/-- Where the component is found. -/
def linkedThere : Path := ⟨.absolute, ["w", "lib", "v1.2", "..Box.min.tsx"]⟩

theorem linked_entry : linkedHost.realPath linkedEntry = .ok linkedHere := by
  cbv

theorem linked_component : linkedHost.realPath linkedComponent = .ok linkedThere := by
  cbv

/-- Behind a link, the way is the one between the real paths. -/
theorem importPath_arrives_linked : ∃ text,
    (importPath linkedEntry linkedComponent).exec linkedHost = (.ok text, linkedHost) ∧
      ("./".toList <+: text.toList ∨ "../".toList <+: text.toList) ∧
        (linkedHere.parent.join (Path.ofText (text ++
          String.ofList (Path.extension linkedThere.name.toList)))).normal = linkedThere :=
  have hw : linkedHost.workingDirectory.IsWritten := by decide
  importPath_arrives (hw.join (Path.ofText_isWritten _)) (hw.join (Path.ofText_isWritten _))
    linked_entry linked_component (by decide)

example : modulePath linkedHere linkedThere = "../lib/v1.2/..Box.min" := by
  decide

example : modulePath ⟨.absolute, ["index.js"]⟩ ⟨.absolute, ["..foo"]⟩ = "./..foo" := by
  decide

end Preview
end Vitrine
