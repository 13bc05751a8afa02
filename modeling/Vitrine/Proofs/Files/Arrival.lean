import Vitrine.Files.Walk
import Vitrine.Proofs.Files.Sight

/-!
# Where a path leads

`Arrives` is the relation behind `walk`: it says at which place names end, whatever lies there. It
depends on the directories and links of a store alone, so that writing and removing files redirects
no path (`Arrives.of_sameWays`), and directories that are added redirect none either
(`Arrives.of_extends`).
-/
namespace Vitrine

def Reached.place : Reached → Place
  | .there place _ => place
  | .free place => place

namespace Store

def IsDirectory (s : Store) (q : Place) : Prop :=
  ∃ mode, s.seen q = some (.directory mode (.counted 0))

/-- A place that holds a file or nothing. -/
def IsLeaf (s : Store) (q : Place) : Prop :=
  s.seen q = none ∨ ∃ content mode, s.seen q = some (.file content mode (.counted 0))

/-- A place is a way if it and all that it lies in are directories. -/
def IsWay (s : Store) (q : Place) : Prop := ∀ r, r <+: q → s.IsDirectory r

theorem isDirectory_root (s : Store) : s.IsDirectory [] := ⟨Node.directoryMode, s.seen_root⟩

theorem isWay_root (s : Store) : s.IsWay [] := by
  intro r hr
  rw [List.prefix_nil.mp hr]
  exact s.isDirectory_root

theorem IsWay.dropLast {s : Store} {q : Place} (h : s.IsWay q) : s.IsWay q.dropLast :=
  fun r hr => h r (hr.trans (List.dropLast_prefix q))

theorem IsWay.child {s : Store} {q : Place} {name : String} (h : s.IsWay q)
    (hd : s.IsDirectory (q ++ [name])) : s.IsWay (q ++ [name]) := by
  intro r hr
  rcases List.prefix_concat_iff.mp hr with rfl | hr
  · exact hd
  · exact h r hr

theorem IsLeaf.not_isDirectory {s : Store} {q : Place} (h : s.IsLeaf q) : ¬ s.IsDirectory q := by
  rintro ⟨mode, hm⟩
  rcases h with h | ⟨content, mode', h⟩
  · rw [h] at hm
    cases hm
  · rw [h] at hm
    cases hm

theorem IsLeaf.ne_link {s : Store} {q : Place} {target : String} (h : s.IsLeaf q) :
    s.seen q ≠ some (.link target) := by
  intro hl
  rcases h with h | ⟨content, mode, h⟩
  · rw [h] at hl
    cases hl
  · rw [h] at hl
    cases hl

theorem IsLeaf.ne_root {s : Store} {q : Place} (h : s.IsLeaf q) : q ≠ [] := by
  rintro rfl
  exact h.not_isDirectory s.isDirectory_root

theorem seen_eq_none {s : Store} {q : Place} : s.seen q = none ↔ s.get? q = none := by
  rw [seen, Option.map_eq_none_iff]

theorem get?_of_seen_file {s : Store} {q : Place} {content : List UInt8} {mode : Nat}
    (h : s.seen q = some (.file content mode (.counted 0))) :
    ∃ changed, s.get? q = some (.file content mode changed) := by
  obtain ⟨n, hn, hp⟩ := Option.map_eq_some_iff.mp h
  obtain ⟨changed, rfl⟩ := Node.plain_eq_file hp
  exact ⟨changed, hn⟩

theorem get?_of_isDirectory {s : Store} {q : Place} (h : s.IsDirectory q) :
    ∃ mode changed, s.get? q = some (.directory mode changed) := by
  obtain ⟨mode, h⟩ := h
  obtain ⟨n, hn, hp⟩ := Option.map_eq_some_iff.mp h
  obtain ⟨changed, rfl⟩ := Node.plain_eq_directory hp
  exact ⟨mode, changed, hn⟩

theorem seen_eq_link {s : Store} {q : Place} {target : String} :
    s.seen q = some (.link target) ↔ s.get? q = some (.link target) := by
  constructor
  · intro h
    obtain ⟨n, hn, hp⟩ := Option.map_eq_some_iff.mp h
    rw [hn, Node.plain_eq_link hp]
  · intro h
    rw [seen, h]
    rfl

theorem seen_of_get? {s : Store} {q : Place} {n : Node} (h : s.get? q = some n) :
    s.seen q = some n.plain := by
  rw [seen, h]
  rfl

/-! ## Arriving -/

/-- Names lead from a directory to a place, over at most so many links. -/
inductive Arrives (s : Store) (follow : Bool) : Nat → Place → List String → Place → Prop
  | here {links : Nat} {here : Place} : Arrives s follow links here [] here
  | up {links : Nat} {here : Place} {rest : List String} {q : Place}
      (next : Arrives s follow links here.dropLast rest q) :
      Arrives s follow links here (".." :: rest) q
  /-- The last name, whatever it names; only links may have to be followed. -/
  | last {links : Nat} {here : Place} {name : String} (hup : name ≠ "..")
      (hlen : name.utf8ByteSize ≤ nameLimit)
      (hlink : ∀ target, s.seen (here ++ [name]) = some (.link target) → follow = false) :
      Arrives s follow links here [name] (here ++ [name])
  | into {links : Nat} {here : Place} {name : String} {rest : List String} {q : Place}
      (hup : name ≠ "..") (hlen : name.utf8ByteSize ≤ nameLimit) (hrest : rest ≠ [])
      (hdir : s.IsDirectory (here ++ [name])) (next : Arrives s follow links (here ++ [name]) rest q) :
      Arrives s follow links here (name :: rest) q
  | through {links : Nat} {here : Place} {name : String} {rest : List String} {q : Place}
      {target : String} (hup : name ≠ "..") (hlen : name.utf8ByteSize ≤ nameLimit)
      (hrest : rest ≠ [] ∨ follow = true) (hlink : s.seen (here ++ [name]) = some (.link target))
      (next : Arrives s follow links (if (Path.ofText target).isAbsolute then [] else here)
        ((Path.ofText target).parts ++ rest) q) :
      Arrives s follow (links + 1) here (name :: rest) q

/-- What is reached at a place. -/
def reachedAt (s : Store) (q : Place) : Reached :=
  match s.get? q with
  | some n => .there q n
  | none => .free q

theorem reachedAt_of_get? {s : Store} {q : Place} {n : Node} (h : s.get? q = some n) :
    s.reachedAt q = .there q n := by
  rw [reachedAt, h]

@[simp] theorem place_reachedAt (s : Store) (q : Place) : (s.reachedAt q).place = q := by
  rw [reachedAt]
  split <;> rfl

/-- A walk that ends somewhere arrives there. -/
theorem arrives_of_walk {s : Store} {follow : Bool} {links : Nat} {here : Place}
    {names : List String} {r : Reached} (h : s.walk follow links here names = .ok r) :
    s.Arrives follow links here names r.place := by
  fun_induction Store.walk s follow links here names with
  | case1 links here =>
    cases h
    exact .here
  | case2 links here rest ih => exact .up (ih h)
  | case3 => cases h
  | case4 links here name rest hup hlen place hn hr =>
    cases h
    rw [List.isEmpty_iff.mp hr]
    refine .last hup (Nat.le_of_not_lt hlen) fun target ht => ?_
    rw [seen_eq_none.mpr hn] at ht
    cases ht
  | case5 => cases h
  | case6 links here name rest hup hlen place target hl hr =>
    cases h
    have hr' := Bool.and_eq_true_iff.mp hr
    rw [List.isEmpty_iff.mp hr'.1]
    exact .last hup (Nat.le_of_not_lt hlen) fun _ _ => by simpa using hr'.2
  | case7 => cases h
  | case8 here name rest hup hlen place target hl hr links path ih =>
    refine .through hup (Nat.le_of_not_lt hlen) ?_ (seen_eq_link.mpr hl) (by simpa using ih h)
    by_cases he : rest = []
    · right
      simpa [he] using hr
    · exact Or.inl he
  | case9 links here name rest hup hlen place mode changed hd hr =>
    cases h
    rw [List.isEmpty_iff.mp hr]
    refine .last hup (Nat.le_of_not_lt hlen) fun target ht => ?_
    rw [seen_of_get? hd] at ht
    cases ht
  | case10 links here name rest hup hlen place mode changed hd hr ih =>
    exact .into hup (Nat.le_of_not_lt hlen) (by simpa using hr) ⟨mode, seen_of_get? hd⟩ (ih h)
  | case11 links here name rest hup hlen place content mode changed hf hr =>
    cases h
    rw [List.isEmpty_iff.mp hr]
    refine .last hup (Nat.le_of_not_lt hlen) fun target ht => ?_
    rw [seen_of_get? hf] at ht
    cases ht
  | case12 => cases h

/-- Where names arrive, the walk ends. -/
theorem walk_of_arrives {s : Store} {follow : Bool} {links : Nat} {here q : Place}
    {names : List String} (h : s.Arrives follow links here names q) (hw : s.IsWay here) :
    s.walk follow links here names = .ok (s.reachedAt q) := by
  induction h with
  | @here links here =>
    obtain ⟨mode, changed, hd⟩ := get?_of_isDirectory (hw here List.prefix_rfl)
    rw [walk, reachedAt_of_get? hd, hd]
    rfl
  | up next ih =>
    rw [walk, if_pos rfl]
    exact ih hw.dropLast
  | @last links here name hup hlen hlink =>
    rw [walk, if_neg hup, if_neg (Nat.not_lt.mpr hlen)]
    cases hn : s.get? (here ++ [name]) with
    | none => simp [reachedAt, hn]
    | some n =>
      rw [reachedAt_of_get? hn]
      cases n with
      | file c m t => simp [hn]
      | directory m t => simp [hn]
      | link target =>
        have hf := hlink target (seen_eq_link.mpr hn)
        simp [hf, hn]
  | @into links here name rest q hup hlen hrest hdir next ih =>
    obtain ⟨mode, changed, hd⟩ := get?_of_isDirectory hdir
    rw [walk, if_neg hup, if_neg (Nat.not_lt.mpr hlen)]
    simp only [hd, List.isEmpty_iff, hrest, if_false]
    exact ih (hw.child hdir)
  | @through links here name rest q target hup hlen hrest hlink next ih =>
    rw [walk, if_neg hup, if_neg (Nat.not_lt.mpr hlen)]
    have hgo : ¬ (rest.isEmpty && !follow) = true := by
      rcases hrest with hr | hf
      · simp [hr]
      · simp [hf]
    simp only [seen_eq_link.mp hlink, hgo]
    refine ih ?_
    split
    · exact s.isWay_root
    · exact hw

/-- Names arrive at one place at most. -/
theorem Arrives.unique {s : Store} {follow : Bool} {links : Nat} {here q r : Place}
    {names : List String} (hq : s.Arrives follow links here names q)
    (hr : s.Arrives follow links here names r) (hw : s.IsWay here) : q = r := by
  have h := walk_of_arrives hq hw
  rw [walk_of_arrives hr hw] at h
  have := congrArg Reached.place (Except.ok.inj h)
  simpa using this.symm

/-- All that a place lies in where names arrive is a directory. -/
theorem Arrives.isWay {s : Store} {follow : Bool} {links : Nat} {here q : Place}
    {names : List String} (h : s.Arrives follow links here names q) (hw : s.IsWay here) :
    s.IsWay q.dropLast := by
  induction h with
  | here => exact hw.dropLast
  | up next ih => exact ih hw.dropLast
  | last => simpa using hw
  | into hup hlen hrest hdir next ih => exact ih (hw.child hdir)
  | through hup hlen hrest hlink next ih =>
    refine ih ?_
    split
    · exact s.isWay_root
    · exact hw

/-! ## Stores that differ in their files -/

/-- Two stores with the same directories and links. -/
def SameWays (s t : Store) : Prop := ∀ q, s.seen q = t.seen q ∨ s.IsLeaf q ∧ t.IsLeaf q

theorem SameWays.refl (s : Store) : SameWays s s := fun _ => Or.inl rfl

theorem SameWays.symm {s t : Store} (h : SameWays s t) : SameWays t s := by
  intro q
  rcases h q with h | ⟨hs, ht⟩
  · exact Or.inl h.symm
  · exact Or.inr ⟨ht, hs⟩

theorem IsLeaf.of_seen_eq {s t : Store} {q : Place} (h : s.seen q = t.seen q)
    (hs : s.IsLeaf q) : t.IsLeaf q := by
  rw [IsLeaf, ← h]
  exact hs

theorem SameWays.trans {s t u : Store} (h : SameWays s t) (k : SameWays t u) : SameWays s u := by
  intro q
  rcases h q with hst | ⟨hs, ht⟩
  · rcases k q with htu | ⟨ht, hu⟩
    · exact Or.inl (hst.trans htu)
    · exact Or.inr ⟨ht.of_seen_eq hst.symm, hu⟩
  · rcases k q with htu | ⟨_, hu⟩
    · exact Or.inr ⟨hs, ht.of_seen_eq htu⟩
    · exact Or.inr ⟨hs, hu⟩

theorem SameWays.isLeaf {s t : Store} (h : SameWays s t) {q : Place} (hs : s.IsLeaf q) :
    t.IsLeaf q := by
  rcases h q with hst | ⟨_, ht⟩
  · exact hs.of_seen_eq hst
  · exact ht

theorem SameWays.isDirectory {s t : Store} (h : SameWays s t) {q : Place}
    (hs : s.IsDirectory q) : t.IsDirectory q := by
  rcases h q with hst | ⟨hl, _⟩
  · obtain ⟨mode, hm⟩ := hs
    exact ⟨mode, hst ▸ hm⟩
  · exact absurd hs hl.not_isDirectory

theorem SameWays.link {s t : Store} (h : SameWays s t) {q : Place} {target : String}
    (hs : s.seen q = some (.link target)) : t.seen q = some (.link target) := by
  rcases h q with hst | ⟨hl, _⟩
  · exact hst ▸ hs
  · exact absurd hs hl.ne_link

/-- A change at a leaf that leaves a leaf there. -/
theorem sameWays_of_leaf {s t : Store} {q : Place} (hs : s.IsLeaf q) (ht : t.IsLeaf q)
    (h : ∀ r, r ≠ q → t.seen r = s.seen r) : SameWays s t := by
  intro r
  by_cases hr : r = q
  · subst hr
    exact Or.inr ⟨hs, ht⟩
  · exact Or.inl (h r hr).symm

/-- Ways depend on directories and links alone. -/
theorem Arrives.of_links {s t : Store} (hdirs : ∀ q, s.IsDirectory q → t.IsDirectory q)
    (hlinks : ∀ q target, t.seen q = some (.link target) ↔ s.seen q = some (.link target))
    {follow : Bool} {links : Nat} {here q : Place} {names : List String}
    (ha : s.Arrives follow links here names q) : t.Arrives follow links here names q := by
  induction ha with
  | here => exact .here
  | up next ih => exact .up ih
  | last hup hlen hlink =>
    exact .last hup hlen fun target ht => hlink target ((hlinks _ target).mp ht)
  | into hup hlen hrest hdir next ih => exact .into hup hlen hrest (hdirs _ hdir) ih
  | through hup hlen hrest hlink next ih =>
    exact .through hup hlen hrest ((hlinks _ _).mpr hlink) ih

theorem Arrives.of_sameWays {s t : Store} (h : SameWays s t) {follow : Bool} {links : Nat}
    {here q : Place} {names : List String} (ha : s.Arrives follow links here names q) :
    t.Arrives follow links here names q :=
  ha.of_links (fun _ => h.isDirectory) fun _ _ => ⟨h.symm.link, h.link⟩

/-! ## Stores with more directories -/

/-- A store with all that another one holds, and with more directories. -/
def Extends (s t : Store) : Prop :=
  ∀ q, t.seen q = s.seen q ∨ s.seen q = none ∧ t.IsDirectory q

theorem Extends.refl (s : Store) : Extends s s := fun _ => Or.inl rfl

theorem Extends.trans {s t u : Store} (h : Extends s t) (k : Extends t u) : Extends s u := by
  intro q
  rcases h q with hst | ⟨hs, ht⟩
  · rcases k q with htu | ⟨ht, hu⟩
    · exact Or.inl (htu.trans hst)
    · exact Or.inr ⟨hst ▸ ht, hu⟩
  · rcases k q with htu | ⟨hn, hu⟩
    · obtain ⟨mode, hm⟩ := ht
      exact Or.inr ⟨hs, mode, htu ▸ hm⟩
    · exact Or.inr ⟨hs, hu⟩

theorem Extends.seen {s t : Store} (h : Extends s t) {q : Place} {n : Node}
    (hs : s.seen q = some n) : t.seen q = some n := by
  rcases h q with hst | ⟨hn, _⟩
  · rw [hst, hs]
  · rw [hn] at hs
    cases hs

theorem Extends.isDirectory {s t : Store} (h : Extends s t) {q : Place}
    (hs : s.IsDirectory q) : t.IsDirectory q := by
  obtain ⟨mode, hm⟩ := hs
  exact ⟨mode, h.seen hm⟩

/-- What is no directory in the larger store is the same in the smaller one. -/
theorem Extends.seen_eq {s t : Store} (h : Extends s t) {q : Place} (hd : ¬ t.IsDirectory q) :
    t.seen q = s.seen q := by
  rcases h q with hst | ⟨_, ht⟩
  · exact hst
  · exact absurd ht hd

theorem Extends.link_iff {s t : Store} (h : Extends s t) {q : Place} {target : String} :
    t.seen q = some (.link target) ↔ s.seen q = some (.link target) := by
  refine ⟨fun hl => ?_, h.seen⟩
  rw [← h.seen_eq, hl]
  rintro ⟨mode, hm⟩
  cases hl.symm.trans hm

theorem Arrives.of_extends {s t : Store} (h : Extends s t) {follow : Bool} {links : Nat}
    {here q : Place} {names : List String} (ha : s.Arrives follow links here names q) :
    t.Arrives follow links here names q :=
  ha.of_links (fun _ => h.isDirectory) fun _ _ => h.link_iff

/-- A path that arrives in the larger store arrives in the smaller one, or misses a directory. -/
theorem Arrives.of_extended {s t : Store} (h : Extends s t) {follow : Bool} {links : Nat}
    {here q : Place} {names : List String} (ha : t.Arrives follow links here names q) :
    s.Arrives follow links here names q ∨ s.walk follow links here names = .error .noEntry := by
  induction ha with
  | here => exact Or.inl .here
  | up next ih =>
    rcases ih with ih | ih
    · exact Or.inl (.up ih)
    · right
      rw [walk, if_pos rfl, ih]
  | last hup hlen hlink => exact Or.inl (.last hup hlen fun target ht => hlink target (h.seen ht))
  | @into links here name rest q hup hlen hrest hdir next ih =>
    rcases h (here ++ [name]) with hst | ⟨hn, _⟩
    · have hs : s.IsDirectory (here ++ [name]) := by
        obtain ⟨mode, hm⟩ := hdir
        exact ⟨mode, hst ▸ hm⟩
      rcases ih with ih | ih
      · exact Or.inl (.into hup hlen hrest hs ih)
      · obtain ⟨mode, changed, hd⟩ := get?_of_isDirectory hs
        right
        rw [walk, if_neg hup, if_neg (Nat.not_lt.mpr hlen)]
        simp only [hd, List.isEmpty_iff, hrest, if_false, ih]
    · right
      rw [walk, if_neg hup, if_neg (Nat.not_lt.mpr hlen)]
      simp only [seen_eq_none.mp hn, List.isEmpty_iff, hrest, if_false]
  | @through links here name rest q target hup hlen hrest hlink next ih =>
    have hs : s.seen (here ++ [name]) = some (.link target) := h.link_iff.mp hlink
    rcases ih with ih | ih
    · exact Or.inl (.through hup hlen hrest hs ih)
    · right
      have hgo : ¬ (rest.isEmpty && !follow) = true := by
        rcases hrest with hr | hf
        · simp [hr]
        · simp [hf]
      rw [walk, if_neg hup, if_neg (Nat.not_lt.mpr hlen)]
      simp only [seen_eq_link.mp hs, hgo]
      exact ih

/-! ## One more name -/

/-- A name in a directory that a path leads to. -/
theorem Arrives.child {s : Store} {follow : Bool} {links : Nat} {here q : Place}
    {names : List String} {name : String} (h : s.Arrives true links here names q)
    (hd : s.IsDirectory q) (hup : name ≠ "..") (hlen : name.utf8ByteSize ≤ nameLimit)
    (hlink : ∀ target, s.seen (q ++ [name]) = some (.link target) → follow = false) :
    s.Arrives follow links here (names ++ [name]) (q ++ [name]) := by
  induction h with
  | here => exact .last hup hlen hlink
  | up next ih => exact .up (ih hd hlink)
  | last hup' hlen' hlink' => exact .into hup' hlen' (by simp) hd (.last hup hlen hlink)
  | into hup' hlen' hrest hdir next ih => exact .into hup' hlen' (by simp) hdir (ih hd hlink)
  | through hup' hlen' hrest hlink' next ih =>
    refine .through hup' hlen' (Or.inl (by simp)) hlink' ?_
    have hnext := ih hd hlink
    rwa [List.append_assoc] at hnext

/-- A path to a directory over its last link leads somewhere also if that link is not followed. -/
theorem Arrives.unfollowed {s : Store} {links : Nat} {here q : Place} {names : List String}
    (h : s.Arrives true links here names q) (hd : s.IsDirectory q) :
    ∃ r, s.Arrives false links here names r ∧ s.seen r ≠ none := by
  induction h with
  | @here links here =>
    obtain ⟨mode, hm⟩ := hd
    exact ⟨here, .here, by simp [hm]⟩
  | up next ih =>
    obtain ⟨r, hr, hs⟩ := ih hd
    exact ⟨r, .up hr, hs⟩
  | last hup hlen hlink =>
    obtain ⟨mode, hm⟩ := hd
    exact ⟨_, .last hup hlen fun _ _ => rfl, by simp [hm]⟩
  | into hup hlen hrest hdir next ih =>
    obtain ⟨r, hr, hs⟩ := ih hd
    exact ⟨r, .into hup hlen hrest hdir hr, hs⟩
  | @through links here name rest q target hup hlen hrest hlink next ih =>
    by_cases hr : rest = []
    · subst hr
      exact ⟨here ++ [name], .last hup hlen fun _ _ => rfl, by simp [hlink]⟩
    · obtain ⟨r, ha, hs⟩ := ih hd
      exact ⟨r, .through hup hlen (Or.inl hr) hlink ha, hs⟩

/-! ## Paths -/

/-- An absolute path leads to a place. -/
structure Leads (s : Store) (follow : Bool) (p : Path) (q : Place) : Prop where
  short : p.text.utf8ByteSize ≤ pathLimit
  arrives : s.Arrives follow linkLimit [] p.parts q

namespace Leads

variable {s t : Store} {follow : Bool} {p : Path} {q r : Place}

theorem reach (h : s.Leads follow p q) : s.reach follow p = .ok (s.reachedAt q) := by
  rw [Store.reach, if_neg (Nat.not_lt.mpr h.short)]
  exact walk_of_arrives h.arrives s.isWay_root

theorem of_reach {x : Reached} (h : s.reach follow p = .ok x) : s.Leads follow p x.place := by
  rw [Store.reach] at h
  split at h
  · cases h
  · exact ⟨by omega, arrives_of_walk h⟩

theorem unique (h : s.Leads follow p q) (k : s.Leads follow p r) : q = r :=
  h.arrives.unique k.arrives s.isWay_root

theorem of_sameWays (hw : SameWays s t) (h : s.Leads follow p q) : t.Leads follow p q :=
  ⟨h.short, h.arrives.of_sameWays hw⟩

theorem of_extends (he : Extends s t) (h : s.Leads follow p q) : t.Leads follow p q :=
  ⟨h.short, h.arrives.of_extends he⟩

theorem of_extended (he : Extends s t) (h : t.Leads follow p q) :
    s.Leads follow p q ∨ s.reach follow p = .error .noEntry := by
  rcases h.arrives.of_extended he with ha | hw
  · exact Or.inl ⟨h.short, ha⟩
  · right
    rw [Store.reach, if_neg (Nat.not_lt.mpr h.short), hw]

end Leads

end Store

/-! ## Changes at leaves -/

/-- What lies at one place may differ between two stores, if no path is redirected by that. -/
structure Store.DiffersAt (p : Place) (s t : Store) : Prop where
  ways : Store.SameWays s t
  others : ∀ q, q ≠ p → t.seen q = s.seen q

theorem Store.differsAt_of_leaf {s t : Store} {p : Place} (hs : s.IsLeaf p) (ht : t.IsLeaf p)
    (h : ∀ q, q ≠ p → t.seen q = s.seen q) : Store.DiffersAt p s t :=
  ⟨Store.sameWays_of_leaf hs ht h, h⟩

namespace Change

variable {s : Store} {p : Place}

theorem differsAt_write (h : s.IsLeaf p) (content : List UInt8) (mode : Nat) :
    Store.DiffersAt p s ((write p content mode).apply s) := by
  refine Store.differsAt_of_leaf h (Or.inr ⟨content, mode, ?_⟩) fun r hr => ?_
  · rw [seen_write s p content mode h.ne_root, if_pos rfl]
  · rw [seen_write s r content mode h.ne_root, if_neg hr]

theorem differsAt_remove (h : s.IsLeaf p) : Store.DiffersAt p s ((remove p).apply s) := by
  refine Store.differsAt_of_leaf h (Or.inl ?_) fun r hr => ?_
  · rw [seen_remove s p h.ne_root, if_pos rfl]
  · rw [seen_remove s r h.ne_root, if_neg hr]

theorem differsAt_setMode (h : s.IsLeaf p) (mode : Nat) :
    Store.DiffersAt p s ((setMode p mode).apply s) := by
  refine Store.differsAt_of_leaf h ?_ fun r hr => ?_
  · rw [Store.IsLeaf, seen_setMode s p mode h.ne_root, if_pos rfl]
    rcases h with hn | ⟨content, m, hf⟩
    · rw [hn]
      exact Or.inl rfl
    · rw [hf]
      exact Or.inr ⟨content, mode, rfl⟩
  · rw [seen_setMode s r mode h.ne_root, if_neg hr]

end Change
end Vitrine
