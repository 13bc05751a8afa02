import Vitrine.Proofs.Files.Differences
import Vitrine.Proofs.Files.Spelling

/-!
# Real paths

Where a path leads over no links, whether anything is there or not. `Resolves` is the relation behind
`trace` for names that meet no circle of links (`trace_of_resolves`); it looks at links alone, so that
neither directories that are made nor files that are written change a real path (`SameLinks.settles`). A
place that is resolved to is straight: there is no link on its way.
-/
namespace Vitrine
namespace Path

theorem join_join (a b c : Path) : a.join (b.join c) = (a.join b).join c := by
  obtain ⟨broot, bparts⟩ := b
  obtain ⟨croot, cparts⟩ := c
  cases broot <;> cases croot <;> simp [join, isAbsolute]

theorem isSound_join (d p : Path) :
    (d.join p).isSound = if p.isAbsolute then p.isSound else d.isSound && p.isSound := by
  rw [join]
  split
  · rfl
  · rw [isSound, List.all_append]
    rfl

/-- Paths that lead from the root downwards. -/
structure IsResolved (p : Path) : Prop where
  absolute : p.root = .absolute
  written : p.IsWritten
  up : ".." ∉ p.parts

end Path

theorem Host.absolute_join (h : Host) (d p : Path) : h.absolute (d.join p) = (h.absolute d).join p :=
  Path.join_join _ _ _

namespace Store

variable {s : Store} {place : Place}

theorem isResolved_root : (pathOf []).IsResolved :=
  ⟨rfl, fun _ hn => absurd hn List.not_mem_nil, List.not_mem_nil⟩

theorem isResolved_dropLast (h : (pathOf place).IsResolved) : (pathOf place.dropLast).IsResolved :=
  ⟨rfl, fun n hn => h.written n (List.mem_of_mem_dropLast hn),
    fun hn => h.up (List.mem_of_mem_dropLast hn)⟩

theorem isResolved_concat {name : String} (h : (pathOf place).IsResolved) (hname : Path.IsPart name)
    (hup : name ≠ "..") : (pathOf (place ++ [name])).IsResolved := by
  refine ⟨rfl, h.written.child hname, fun hn => ?_⟩
  rcases List.mem_append.mp hn with hplace | hlast
  · exact h.up hplace
  · exact hup (List.mem_singleton.mp hlast).symm

theorem isResolved_normalize {names : List String} (hplace : (pathOf place).IsResolved)
    (hnames : ∀ name ∈ names, Path.IsPart name) : (pathOf (normalize place names)).IsResolved := by
  induction names generalizing place with
  | nil => exact hplace
  | cons name names ih =>
    refine ih ?_ fun n hn => hnames n (List.mem_cons_of_mem _ hn)
    split
    · exact isResolved_dropLast hplace
    · next hup => exact isResolved_concat hplace (hnames name List.mem_cons_self) hup

/-- A trace meets no other names than those of the path and of the links on its way, and keeps no
double dots. -/
theorem isResolved_trace {links : Nat} {ended : List (Place × Place)} {open_ : List Place}
    {here : Place} {legs : List Leg}
    (hended : ∀ place goal, ended.lookup place = some goal → (pathOf goal).IsResolved)
    (hhere : (pathOf here).IsResolved) (hlegs : ∀ name, .name name ∈ legs → Path.IsPart name) :
    (pathOf (s.trace links ended open_ here legs)).IsResolved := by
  have hchild : ∀ {here : Place} {name : String} {rest : List Leg}, (pathOf here).IsResolved →
      (∀ n, .name n ∈ .name name :: rest → Path.IsPart n) → name ≠ ".." →
        (pathOf (here ++ [name])).IsResolved :=
    fun hhere hlegs hup => isResolved_concat hhere (hlegs _ List.mem_cons_self) hup
  have htail : ∀ {leg : Leg} {rest : List Leg}, (∀ n, .name n ∈ leg :: rest → Path.IsPart n) →
      ∀ n, .name n ∈ rest → Path.IsPart n :=
    fun hlegs n hn => hlegs n (List.mem_cons_of_mem _ hn)
  fun_induction s.trace links ended open_ here legs with
  | case1 => exact hhere
  | case2 links ended open_ here link rest ih =>
    refine ih (fun place goal hgoal => ?_) hhere (htail hlegs)
    rw [List.lookup_cons] at hgoal
    split at hgoal
    · rw [← Option.some.inj hgoal]
      exact hhere
    · exact hended place goal hgoal
  | case3 links ended open_ here rest ih => exact ih hended (isResolved_dropLast hhere) (htail hlegs)
  | case4 links ended open_ here name rest hup place target hlink goal hgoal ih =>
    exact ih hended (hended place goal hgoal) (htail hlegs)
  | case5 ended open_ here name rest hup place target hlink hfresh links hopen path ih =>
    refine ih hended ?_ fun n hn => ?_
    · split
      · exact isResolved_root
      · exact hhere
    · rcases List.mem_append.mp hn with hpath | hrest
      · obtain ⟨m, hm, heq⟩ := List.mem_map.mp hpath
        obtain rfl := Leg.name.inj heq
        exact Path.ofText_isWritten target m hm
      · refine htail hlegs n ?_
        rcases List.mem_cons.mp hrest with heq | hrest
        · cases heq
        · exact hrest
  | case6 links ended open_ here name rest hup =>
    refine isResolved_normalize (hchild hhere hlegs hup) fun n hn => ?_
    obtain ⟨leg, hleg, hname⟩ := List.mem_filterMap.mp hn
    cases leg with
    | endOf link => cases hname
    | name m =>
      obtain rfl := Option.some.inj hname
      exact htail hlegs m hleg
  | case7 links ended open_ here name rest hup place hnolink ih =>
    exact ih hended (hchild hhere hlegs hup) (htail hlegs)

/-- A real path leads from the root downwards. -/
theorem realPath_isResolved {p : Path} (hp : p.IsWritten) : (s.realPath p).IsResolved := by
  refine isResolved_trace (fun place goal h => by cases h) isResolved_root fun name hname => ?_
  obtain ⟨m, hm, heq⟩ := List.mem_map.mp hname
  obtain rfl := Leg.name.inj heq
  exact hp m hm

/-- A real path is a written one. -/
theorem realPath_isWritten {p : Path} (hp : p.IsWritten) : (s.realPath p).IsWritten :=
  (realPath_isResolved hp).written

/-! ## Names that resolve -/

/-- Where the target of a link begins that lies in a directory. -/
def startOf (here : Place) (target : String) : Place :=
  if (Path.ofText target).isAbsolute then [] else here

/-- Names lead from one place to another one, whether anything is there or not, and all links on the
way come to their ends. The number counts the links, those on the ways of links included. -/
inductive Resolves (s : Store) : Nat → Place → List String → Place → Prop
  | here {here : Place} : Resolves s 0 here [] here
  | up {n : Nat} {here q : Place} {rest : List String}
      (next : Resolves s n here.dropLast rest q) : Resolves s n here (".." :: rest) q
  | name {n : Nat} {here q : Place} {name : String} {rest : List String} (hup : name ≠ "..")
      (hlink : ∀ target, s.seen (here ++ [name]) ≠ some (.link target))
      (next : Resolves s n (here ++ [name]) rest q) : Resolves s n here (name :: rest) q
  | link {m n : Nat} {here goal q : Place} {name target : String} {rest : List String}
      (hup : name ≠ "..") (hlink : s.seen (here ++ [name]) = some (.link target))
      (ends : Resolves s m (startOf here target) (Path.ofText target).parts goal)
      (next : Resolves s n goal rest q) : Resolves s (m + n + 1) here (name :: rest) q

variable {s t : Store} {m n : Nat} {here goal q r : Place} {names more : List String}

namespace Resolves

theorem unique (hq : s.Resolves m here names q) (hr : s.Resolves n here names r) : m = n ∧ q = r := by
  induction hq generalizing n r with
  | here =>
    cases hr
    exact ⟨rfl, rfl⟩
  | up next ih =>
    cases hr with
    | up next' => exact ih next'
    | name hup => exact absurd rfl hup
    | link hup => exact absurd rfl hup
  | name hup hlink next ih =>
    cases hr with
    | up => exact absurd rfl hup
    | name _ _ next' => exact ih next'
    | link _ hlink' => exact absurd hlink' (hlink _)
  | link hup hlink ends next ihends ihnext =>
    cases hr with
    | up => exact absurd rfl hup
    | name _ hlink' => exact absurd hlink (hlink' _)
    | link _ hlink' ends' next' =>
      obtain rfl := Node.link.inj (Option.some.inj (hlink.symm.trans hlink'))
      obtain ⟨rfl, rfl⟩ := ihends ends'
      obtain ⟨rfl, rfl⟩ := ihnext next'
      exact ⟨rfl, rfl⟩

theorem append (hm : s.Resolves m here names goal) (hn : s.Resolves n goal more q) :
    s.Resolves (m + n) here (names ++ more) q := by
  induction hm with
  | here => rwa [Nat.zero_add]
  | up next ih => exact .up (ih hn)
  | name hup hlink next ih => exact .name hup hlink (ih hn)
  | @link m' n' here goal' q' name target rest hup hlink ends next _ ih =>
    have h := Resolves.link hup hlink ends (ih hn)
    rwa [show m' + (n' + n) + 1 = m' + n' + 1 + n by omega] at h

/-- Names that resolve do so one part after the other. -/
theorem split (h : s.Resolves n here (names ++ more) q) :
    ∃ m m' goal, s.Resolves m here names goal ∧ s.Resolves m' goal more q ∧ m + m' = n := by
  induction names generalizing n here with
  | nil => exact ⟨0, n, here, .here, h, Nat.zero_add n⟩
  | cons name names ih =>
    cases h with
    | up next =>
      obtain ⟨m, m', goal, hm, hm', rfl⟩ := ih next
      exact ⟨m, m', goal, .up hm, hm', rfl⟩
    | name hup hlink next =>
      obtain ⟨m, m', goal, hm, hm', rfl⟩ := ih next
      exact ⟨m, m', goal, .name hup hlink hm, hm', rfl⟩
    | @link l _ _ _ _ _ _ _ hup hlink ends next =>
      obtain ⟨m, m', goal, hm, hm', rfl⟩ := ih next
      exact ⟨l + m + 1, m', goal, .link hup hlink ends hm, hm', by omega⟩

/-- Resolving depends on links only. -/
theorem of_links (hlinks : ∀ q target, t.seen q = some (.link target) ↔ s.seen q = some (.link target))
    (h : s.Resolves n here names q) : t.Resolves n here names q := by
  induction h with
  | here => exact .here
  | up next ih => exact .up ih
  | name hup hlink next ih => exact .name hup (fun target ht => hlink target ((hlinks _ _).mp ht)) ih
  | link hup hlink ends next ihends ihnext => exact .link hup ((hlinks _ _).mpr hlink) ihends ihnext

end Resolves

/-- Where names arrive that is also where they resolve to. -/
theorem Arrives.resolves {links : Nat} (h : s.Arrives true links here names q) :
    ∃ n, s.Resolves n here names q := by
  induction h with
  | here => exact ⟨0, .here⟩
  | up next ih =>
    obtain ⟨n, hn⟩ := ih
    exact ⟨n, .up hn⟩
  | last hup hlen hlink =>
    exact ⟨0, .name hup (fun target ht => Bool.noConfusion (hlink target ht)) .here⟩
  | into hup hlen hrest hdir next ih =>
    obtain ⟨n, hn⟩ := ih
    obtain ⟨mode, hm⟩ := hdir
    refine ⟨n, .name hup (fun target ht => ?_) hn⟩
    rw [hm] at ht
    cases ht
  | through hup hlen hrest hlink next ih =>
    obtain ⟨n, hn⟩ := ih
    obtain ⟨m, m', goal, hm, hm', -⟩ := hn.split
    exact ⟨m + m' + 1, .link hup hlink hm hm'⟩

/-- Where names arrive, the last one not followed, that is in the place that the others resolve to. -/
theorem Arrives.resolves_parent {links : Nat} {name : String}
    (h : s.Arrives false links here (names ++ [name]) q) (hup : name ≠ "..") :
    ∃ n base, s.Resolves n here names base ∧ q = base ++ [name] := by
  generalize hall : names ++ [name] = all at h
  induction h generalizing names with
  | here => simp at hall
  | @up links here rest q next ih =>
    cases names with
    | nil => exact absurd (List.cons.inj hall).1 hup
    | cons first names =>
      obtain ⟨rfl, hrest⟩ := List.cons.inj hall
      obtain ⟨n, base, hr, hq⟩ := ih hrest
      exact ⟨n, base, .up hr, hq⟩
  | @last links here other hup' hlen hlink =>
    obtain ⟨rfl, hother⟩ := List.append_eq_singleton_iff.mp hall |>.resolve_right (by simp)
    exact ⟨0, here, .here, by rw [List.singleton_inj.mp hother]⟩
  | @into links here other rest q hup' hlen hrest hdir next ih =>
    cases names with
    | nil => exact absurd (List.cons.inj hall).2.symm hrest
    | cons first names =>
      obtain ⟨rfl, heq⟩ := List.cons.inj hall
      obtain ⟨n, base, hr, hq⟩ := ih heq
      obtain ⟨mode, hm⟩ := hdir
      refine ⟨n, base, .name hup' (fun target ht => ?_) hr, hq⟩
      rw [hm] at ht
      cases ht
  | @through links here other rest q target hup' hlen hrest hlink next ih =>
    cases names with
    | nil => exact absurd (List.cons.inj hall).2.symm (hrest.resolve_right Bool.false_ne_true)
    | cons first names =>
      obtain ⟨rfl, heq⟩ := List.cons.inj hall
      have hrest' : ((Path.ofText target).parts ++ names) ++ [name] =
          (Path.ofText target).parts ++ rest := by
        rw [List.append_assoc, ← heq]
        rfl
      obtain ⟨n, base, hr, hq⟩ := ih hrest'
      obtain ⟨m, m', goal, hm, hm', -⟩ := hr.split
      exact ⟨m + m' + 1, base, .link hup' hlink hm hm', hq⟩

/-- A place on whose way there is no link. -/
structure IsStraight (s : Store) (q : Place) : Prop where
  up : ".." ∉ q
  unlinked : ∀ r, r <+: q → ∀ target, s.seen r ≠ some (.link target)

/-- Where a directory stands for itself under two names, the names behind it resolve alike. -/
theorem Resolves.rejoin {d e p : Path} {k l : Nat} (h : s.Resolves n [] (d.join p).parts q)
    (hd : s.Resolves k [] d.parts here) (he : s.Resolves l [] e.parts here) :
    ∃ n', s.Resolves n' [] (e.join p).parts q := by
  rw [Path.join] at h ⊢
  split at h
  · next ha => exact ⟨n, by rwa [if_pos ha]⟩
  · next ha =>
    obtain ⟨m, m', goal, hm, hm', -⟩ := h.split
    obtain rfl := (hm.unique hd).2
    rw [if_neg ha]
    exact ⟨l + m', he.append hm'⟩

/-! ## Tracing -/

/-- A link leads to a place. -/
def Ends (s : Store) (n : Nat) (link goal : Place) : Prop :=
  ∃ target, s.seen link = some (.link target) ∧
    s.Resolves n (startOf link.dropLast target) (Path.ofText target).parts goal

theorem Ends.unique (hq : s.Ends m r q) (hr : s.Ends n r goal) : m = n ∧ q = goal := by
  obtain ⟨target, hlink, hm⟩ := hq
  obtain ⟨target', hlink', hn⟩ := hr
  obtain rfl := Node.link.inj (Option.some.inj (hlink.symm.trans hlink'))
  exact hm.unique hn

/-- What a trace knows: where some links end, and which links it has followed. It may follow as many
more as there are nodes that it has not followed. -/
structure Knows (s : Store) (links : Nat) (ended : List (Place × Place)) (followed : List Place) :
    Prop where
  ends : ∀ link goal, ended.lookup link = some goal → ∃ n, s.Ends n link goal
  enough : (s.nodes.filter fun e => e.1 ∉ followed).length ≤ links

namespace Knows

variable {links : Nat} {ended : List (Place × Place)} {followed : List Place} {link : Place}
  {target : String}

theorem start (s : Store) : s.Knows s.nodes.length [] [] :=
  ⟨fun _ goal h => absurd h (Option.some_ne_none goal).symm, List.length_filter_le _ _⟩

/-- A link is followed that was not followed before. -/
theorem follow (hk : s.Knows links ended followed) (hlink : s.seen link = some (.link target))
    (hnew : link ∉ followed) : ∃ left, links = left + 1 ∧ s.Knows left ended (link :: followed) := by
  have hne : link ≠ [] := by
    rintro rfl
    rw [s.seen_root] at hlink
    cases hlink
  have hlookup : s.nodes.lookup link = some (.link target) := by
    have hg := seen_eq_link.mp hlink
    rwa [get?, if_neg hne] at hg
  obtain ⟨before, after, hnodes, -⟩ := List.lookup_eq_some_iff.mp hlookup
  have hle : ∀ es : List (Place × Node), (es.filter fun e => e.1 ∉ link :: followed).length ≤
      (es.filter fun e => e.1 ∉ followed).length := by
    intro es
    refine (List.monotone_filter_right es fun e he => ?_).length_le
    simp only [List.mem_cons, not_or, decide_eq_true_eq] at he ⊢
    exact he.2
  have henough := hk.enough
  rw [hnodes, List.filter_append, List.filter_cons_of_pos (by simpa using hnew), List.length_append,
    List.length_cons] at henough
  have hbefore := hle before
  have hafter := hle after
  refine ⟨links - 1, by omega, hk.ends, ?_⟩
  rw [hnodes, List.filter_append, List.filter_cons_of_neg (by simp), List.length_append]
  omega

theorem finish (hk : s.Knows links ended followed) (he : ∃ n, s.Ends n link goal) :
    s.Knows links ((link, goal) :: ended) followed := by
  refine ⟨fun link' goal' h => ?_, hk.enough⟩
  rw [List.lookup_cons] at h
  split at h
  · next heq =>
    obtain rfl := eq_of_beq heq
    obtain rfl := Option.some.inj h
    exact he
  · exact hk.ends link' goal' h

end Knows

/-- A link that has been followed, but not to its end. -/
def IsOpen (ended : List (Place × Place)) (followed : List Place) (link : Place) : Prop :=
  link ∈ followed ∧ ended.lookup link = none

/-- A link that was followed to its end is not open any more. -/
theorem isOpen_finish {ended ended' : List (Place × Place)} {followed followed' : List Place}
    {link other : Place} (hnew : link ∉ followed)
    (h : IsOpen ended' followed' other ↔ IsOpen ended (link :: followed) other) :
    IsOpen ((link, goal) :: ended') followed' other ↔ IsOpen ended followed other := by
  rw [IsOpen, List.lookup_cons]
  by_cases ho : other = link
  · subst ho
    simp [IsOpen, hnew]
  · rw [IsOpen, IsOpen, List.mem_cons] at h
    rw [beq_eq_false_iff_ne.mpr ho, IsOpen, h]
    simp [ho]

section Steps

variable {links : Nat} {ended : List (Place × Place)} {followed : List Place} {name target : String}
  {legs : List Leg}

theorem trace_up : s.trace links ended followed here (.name ".." :: legs) =
    s.trace links ended followed here.dropLast legs := by
  rw [trace, if_pos rfl]

theorem trace_name (hup : name ≠ "..")
    (hlink : ∀ target, s.seen (here ++ [name]) ≠ some (.link target)) :
    s.trace links ended followed here (.name name :: legs) =
      s.trace links ended followed (here ++ [name]) legs := by
  rw [trace, if_neg hup]
  dsimp only
  split
  · next target ht => exact absurd (seen_eq_link.mpr ht) (hlink target)
  · rfl

/-- The way of a link that is known is not gone again. -/
theorem trace_ended (hup : name ≠ "..") (hlink : s.seen (here ++ [name]) = some (.link target))
    (hended : ended.lookup (here ++ [name]) = some goal) :
    s.trace links ended followed here (.name name :: legs) =
      s.trace links ended followed goal legs := by
  have hg : s.get? (here ++ [name]) = some (.link target) := seen_eq_link.mp hlink
  rw [trace, if_neg hup]
  simp only [hg, hended]

theorem trace_link (hup : name ≠ "..") (hlink : s.seen (here ++ [name]) = some (.link target))
    (hended : ended.lookup (here ++ [name]) = none) (hnew : here ++ [name] ∉ followed) :
    s.trace (links + 1) ended followed here (.name name :: legs) =
      s.trace links ended ((here ++ [name]) :: followed) (startOf here target)
        ((Path.ofText target).parts.map .name ++ .endOf (here ++ [name]) :: legs) := by
  have hg : s.get? (here ++ [name]) = some (.link target) := seen_eq_link.mp hlink
  have hfollowed : followed.contains (here ++ [name]) = false := by simpa using hnew
  rw [trace, if_neg hup]
  simp only [hg, hended, hfollowed]
  rfl

end Steps

/-- Where names resolve to that is where a trace gets. -/
theorem trace_of_resolves {links : Nat} {ended : List (Place × Place)} {followed : List Place}
    (h : s.Resolves n here names q) (hk : s.Knows links ended followed)
    -- The links that are open lead on behind these names.
    (hopen : ∀ link m goal, IsOpen ended followed link → s.Ends m link goal → n ≤ m) (legs : List Leg) :
    ∃ links' ended' followed',
      s.trace links ended followed here (names.map .name ++ legs) =
        s.trace links' ended' followed' q legs ∧
      s.Knows links' ended' followed' ∧
      ∀ link, IsOpen ended' followed' link ↔ IsOpen ended followed link := by
  induction h generalizing links ended followed legs with
  | here => exact ⟨links, ended, followed, rfl, hk, fun _ => Iff.rfl⟩
  | up next ih =>
    obtain ⟨links', ended', followed', htrace, hk', hopen'⟩ := ih hk hopen legs
    refine ⟨links', ended', followed', ?_, hk', hopen'⟩
    rw [List.map_cons, List.cons_append, trace_up, htrace]
  | name hup hlink next ih =>
    obtain ⟨links', ended', followed', htrace, hk', hopen'⟩ := ih hk hopen legs
    refine ⟨links', ended', followed', ?_, hk', hopen'⟩
    rw [List.map_cons, List.cons_append, trace_name hup hlink, htrace]
  | @link m n here goal q name target rest hup hlink ends next ihends ihnext =>
    have hends : s.Ends m (here ++ [name]) goal :=
      ⟨target, hlink, by rwa [List.dropLast_concat]⟩
    have hnext : ∀ link m' goal', IsOpen ended followed link → s.Ends m' link goal' → n ≤ m' := by
      intro link m' goal' ho he
      have := hopen link m' goal' ho he
      omega
    cases hended : ended.lookup (here ++ [name]) with
    | some goal' =>
      obtain ⟨m', hm'⟩ := hk.ends _ _ hended
      obtain ⟨-, rfl⟩ := hends.unique hm'
      obtain ⟨links', ended', followed', htrace, hk', hopen'⟩ := ihnext hk hnext legs
      refine ⟨links', ended', followed', ?_, hk', hopen'⟩
      rw [List.map_cons, List.cons_append, trace_ended hup hlink hended, htrace]
    | none =>
      -- Were the link open, it would lead on behind itself.
      have hnew : here ++ [name] ∉ followed := by
        intro hmem
        have := hopen _ m goal ⟨hmem, hended⟩ hends
        omega
      obtain ⟨left, rfl, hk₁⟩ := hk.follow hlink hnew
      have hinner : ∀ link m' goal', IsOpen ended ((here ++ [name]) :: followed) link →
          s.Ends m' link goal' → m ≤ m' := by
        rintro link m' goal' ⟨hmem, hno⟩ he
        rcases List.mem_cons.mp hmem with rfl | hmem
        · exact (hends.unique he).1.le
        · have := hopen link m' goal' ⟨hmem, hno⟩ he
          omega
      obtain ⟨links₁, ended₁, followed₁, htrace₁, hk₁, hopen₁⟩ :=
        ihends hk₁ hinner (.endOf (here ++ [name]) :: (rest.map .name ++ legs))
      have hopen₂ : ∀ link, IsOpen ((here ++ [name], goal) :: ended₁) followed₁ link ↔
          IsOpen ended followed link := fun link => isOpen_finish hnew (hopen₁ link)
      obtain ⟨links', ended', followed', htrace, hk', hopen'⟩ := ihnext (hk₁.finish ⟨m, hends⟩)
        (fun link m' goal' ho => hnext link m' goal' ((hopen₂ link).mp ho)) legs
      refine ⟨links', ended', followed', ?_, hk', fun link => (hopen' link).trans (hopen₂ link)⟩
      rw [List.map_cons, List.cons_append, trace_link hup hlink hended hnew, htrace₁, trace, htrace]

/-- The real path of names that resolve. -/
theorem realPath_of_resolves {p : Path} (h : s.Resolves n [] p.parts q) : s.realPath p = pathOf q := by
  have hnone : ∀ link m goal, IsOpen [] [] link → s.Ends m link goal → n ≤ m :=
    fun link m goal ho _ => absurd ho.1 List.not_mem_nil
  obtain ⟨links', ended', followed', htrace, -⟩ := trace_of_resolves h (.start s) hnone []
  rw [List.append_nil, trace] at htrace
  rw [realPath, htrace]

/-! ## Straight ways -/

theorem isStraight_root (s : Store) : s.IsStraight [] where
  up := List.not_mem_nil
  unlinked := fun r hr target ht => by
    rw [List.prefix_nil.mp hr, s.seen_root] at ht
    cases ht

theorem IsStraight.dropLast (hs : s.IsStraight q) : s.IsStraight q.dropLast where
  up := fun h => hs.up (List.mem_of_mem_dropLast h)
  unlinked := fun r hr => hs.unlinked r (hr.trans (List.dropLast_prefix q))

theorem IsStraight.child {name : String} (hs : s.IsStraight q) (hup : name ≠ "..")
    (hlink : ∀ target, s.seen (q ++ [name]) ≠ some (.link target)) : s.IsStraight (q ++ [name]) where
  up := fun h => (List.mem_append.mp h).elim hs.up fun h => hup (List.mem_singleton.mp h).symm
  unlinked := fun r hr => by
    rcases List.prefix_concat_iff.mp hr with rfl | hr
    · exact hlink
    · exact hs.unlinked r hr

/-- What names resolve to is straight. -/
theorem Resolves.isStraight (h : s.Resolves n here names q) (hs : s.IsStraight here) :
    s.IsStraight q := by
  induction h with
  | here => exact hs
  | up next ih => exact ih hs.dropLast
  | name hup hlink next ih => exact ih (hs.child hup hlink)
  | link hup hlink ends next ihends ihnext =>
    refine ihnext (ihends ?_)
    rw [startOf]
    split
    · exact s.isStraight_root
    · exact hs

theorem IsStraight.cons {name : String} (hs : s.IsStraight (here ++ name :: names)) :
    name ≠ ".." ∧ (∀ target, s.seen (here ++ [name]) ≠ some (.link target)) ∧
      s.IsStraight (here ++ [name] ++ names) := by
  rw [List.append_cons] at hs
  refine ⟨fun heq => hs.up ?_, hs.unlinked _ (List.prefix_append _ _), hs⟩
  rw [heq]
  simp

/-- A straight place is what its names resolve to. -/
theorem IsStraight.resolves (hs : s.IsStraight (here ++ names)) :
    s.Resolves 0 here names (here ++ names) := by
  induction names generalizing here with
  | nil =>
    rw [List.append_nil]
    exact .here
  | cons name names ih =>
    obtain ⟨hup, hlink, hrest⟩ := hs.cons
    rw [List.append_cons]
    exact .name hup hlink (ih hrest)

/-- No circle of links is met on a straight way. -/
theorem IsStraight.walk_ne {follow : Bool} {links : Nat} (hs : s.IsStraight (here ++ names)) :
    s.walk follow links here names ≠ .error .linkLoop := by
  fun_induction s.walk follow links here names with
  | case2 links here rest ih => exact absurd rfl hs.cons.1
  | case7 here name rest hup hlen place target hl hr =>
    exact absurd (seen_eq_link.mpr hl) (hs.cons.2.1 target)
  | case8 here name rest hup hlen place target hl hr links path ih =>
    exact absurd (seen_eq_link.mpr hl) (hs.cons.2.1 target)
  | case10 links here name rest hup hlen place mode changed hd hr ih => exact ih hs.cons.2.2
  | _ => simp

/-- A straight way leads nowhere else. -/
theorem IsStraight.arrives {follow : Bool} {links : Nat} (hs : s.IsStraight (here ++ names))
    (ha : s.Arrives follow links here names q) :
    q = here ++ names ∧ ∀ name ∈ names, name.utf8ByteSize ≤ nameLimit := by
  induction ha with
  | here => exact ⟨(List.append_nil _).symm, fun name h => absurd h List.not_mem_nil⟩
  | up next ih => exact absurd rfl hs.cons.1
  | last hup hlen hlink =>
    refine ⟨rfl, fun name h => ?_⟩
    rwa [List.mem_singleton.mp h]
  | into hup hlen hrest hdir next ih =>
    obtain ⟨heq, hall⟩ := ih hs.cons.2.2
    refine ⟨by rw [heq, List.append_assoc, List.singleton_append], fun name h => ?_⟩
    rcases List.mem_cons.mp h with rfl | h
    · exact hlen
    · exact hall name h
  | through hup hlen hrest hlink next ih => exact absurd hlink (hs.cons.2.1 _)

/-- A straight way through directories leads to its end. -/
theorem IsStraight.arrives_of_isWay {follow : Bool} {links : Nat} (hs : s.IsStraight (here ++ names))
    (hw : s.IsWay (here ++ names).dropLast) (hlen : ∀ name ∈ names, name.utf8ByteSize ≤ nameLimit) :
    s.Arrives follow links here names (here ++ names) := by
  induction names generalizing here with
  | nil =>
    rw [List.append_nil]
    exact .here
  | cons name names ih =>
    obtain ⟨hup, hlink, hrest⟩ := hs.cons
    have hname := hlen name List.mem_cons_self
    rw [List.append_cons] at hw ⊢
    cases names with
    | nil =>
      rw [List.append_nil]
      exact .last hup hname fun target ht => absurd ht (hlink target)
    | cons next names =>
      refine .into hup hname (List.cons_ne_nil _ _) (hw _ ?_)
        (ih hrest hw fun n hn => hlen n (List.mem_cons_of_mem _ hn))
      rw [List.dropLast_append_of_ne_nil (List.cons_ne_nil _ _)]
      exact List.prefix_append _ _

/-- A way through directories is straight, if it does not end in a link. -/
theorem isStraight_of_isWay (hup : ".." ∉ q) (hway : s.IsWay q.dropLast)
    (hlink : ∀ target, s.seen q ≠ some (.link target)) : s.IsStraight q := by
  refine ⟨hup, fun r hr target ht => ?_⟩
  have hcases : r = q ∨ r <+: q.dropLast := by
    rcases List.eq_nil_or_concat q with rfl | ⟨above, name, rfl⟩
    · exact Or.inl (List.prefix_nil.mp hr)
    · rw [List.concat_eq_append] at hr ⊢
      rw [List.dropLast_concat]
      exact List.prefix_concat_iff.mp hr
  rcases hcases with rfl | habove
  · exact hlink target ht
  · obtain ⟨mode, hd⟩ := hway r habove
    cases hd.symm.trans ht

/-- A place whose path can be looked at. -/
structure IsNamed (q : Place) : Prop where
  sound : (pathOf q).isSound = true
  up : ".." ∉ q
  short : (pathOf q).text.utf8ByteSize ≤ pathLimit
  fit : ∀ name ∈ q, name.utf8ByteSize ≤ nameLimit

instance (q : Place) : Decidable (IsNamed q) :=
  decidable_of_iff ((pathOf q).isSound = true ∧ ".." ∉ q ∧
      (pathOf q).text.utf8ByteSize ≤ pathLimit ∧ ∀ name ∈ q, name.utf8ByteSize ≤ nameLimit)
    ⟨fun ⟨hsound, hup, hshort, hfit⟩ => ⟨hsound, hup, hshort, hfit⟩,
      fun hq => ⟨hq.sound, hq.up, hq.short, hq.fit⟩⟩

/-- Every node lies in a directory. -/
def IsRooted (s : Store) : Prop := ∀ q, s.seen q ≠ none → s.IsWay q.dropLast

/-- What is seen anywhere but at the root is one of the nodes. -/
theorem mem_nodes_of_seen {node : Node} (hroot : q ≠ []) (hq : s.seen q = some node) :
    ∃ m, (q, m) ∈ s.nodes ∧ m.plain = node := by
  rw [seen_of_ne hroot] at hq
  obtain ⟨m, hlookup, hm⟩ := Option.map_eq_some_iff.mp hq
  obtain ⟨before, after, hnodes, -⟩ := List.lookup_eq_some_iff.mp hlookup
  exact ⟨m, by rw [hnodes]; exact List.mem_append_right _ List.mem_cons_self, hm⟩

theorem isStraight_of_nodes (hup : ".." ∉ q) (h : ∀ e ∈ s.nodes, ∀ target, e.2 ≠ .link target) :
    s.IsStraight q := by
  refine ⟨hup, fun r _ target ht => ?_⟩
  by_cases hroot : r = []
  · subst hroot
    cases s.seen_root.symm.trans ht
  · obtain ⟨m, hmem, hm⟩ := mem_nodes_of_seen hroot ht
    exact h _ hmem target (Node.plain_eq_link hm)

theorem isRooted_of_nodes (h : ∀ e ∈ s.nodes, s.IsDirectory e.1.dropLast) : s.IsRooted := by
  intro q hq
  induction hn : q.length generalizing q with
  | zero =>
    rw [List.length_eq_zero_iff.mp hn]
    exact s.isWay_root
  | succ n ih =>
    have hroot : q ≠ [] := List.ne_nil_of_length_eq_add_one hn
    obtain ⟨node, hnode⟩ := Option.ne_none_iff_exists'.mp hq
    obtain ⟨m, hmem, -⟩ := mem_nodes_of_seen hroot hnode
    have hdir : s.IsDirectory q.dropLast := h _ hmem
    by_cases hparent : q.dropLast = []
    · rw [hparent]
      exact s.isWay_root
    · have hseen : s.seen q.dropLast ≠ none := by
        obtain ⟨mode, hm⟩ := hdir
        rw [hm]
        exact Option.some_ne_none _
      have hway := ih q.dropLast hseen (by rw [List.length_dropLast, hn]; rfl)
      rw [← List.dropLast_concat_getLast hparent] at hdir ⊢
      exact hway.child hdir

/-- A straight place that is reached where directories were made is reached without them, if
something is there. -/
theorem IsStraight.leads_of_leads {follow : Bool} (hs : s.IsStraight q) (ht : t.IsStraight q)
    (hr : s.IsRooted) (hq : s.seen q ≠ none) (hl : t.Leads follow (pathOf q) q) :
    s.Leads follow (pathOf q) q := by
  have hq' : ([] : Place) ++ q = q := rfl
  refine ⟨hl.short, ?_⟩
  have hs' : s.IsStraight ([] ++ q) := hs
  have ht' : t.IsStraight ([] ++ q) := ht
  exact hs'.arrives_of_isWay (hr q hq) (ht'.arrives hl.arrives).2

end Store

namespace Host

variable {h k l : Host} {p real : Path} {q base : Place} {P : Place → Prop}

theorem realPath_eq_ok (hr : h.realPath p = .ok real) :
    p.isSound = true ∧ real = h.store.realPath (h.absolute p) := by
  rw [realPath] at hr
  split at hr
  · next hs =>
    dsimp only at hr
    split at hr
    · cases hr
    · exact ⟨hs, (Except.ok.inj hr).symm⟩
  · cases hr

theorem realPath_of_not_isSound (hs : p.isSound = false) : h.realPath p = .error (.fault .value) := by
  rw [realPath, hs]
  rfl

/-! ## Paths that settle -/

/-- A path leads to a place, whether anything is there or not, and no circle of links is on its way. -/
def Settles (h : Host) (p : Path) (q : Place) : Prop := ∃ n, h.store.Resolves n [] (h.absolute p).parts q

namespace Settles

theorem isStraight (hp : h.Settles p q) : h.store.IsStraight q := by
  obtain ⟨n, hr⟩ := hp
  exact hr.isStraight h.store.isStraight_root

theorem realPath (hp : h.Settles p q) (hs : p.isSound = true) :
    h.realPath p = .ok (Store.pathOf q) := by
  have hstraight : h.store.IsStraight ([] ++ q) := hp.isStraight
  obtain ⟨n, hr⟩ := hp
  have hreach : h.store.reach true (Store.pathOf q) ≠ .error .linkLoop := by
    rw [Store.reach]
    split
    · simp
    · exact hstraight.walk_ne
  rw [Host.realPath, if_pos hs, Store.realPath_of_resolves hr]
  dsimp only
  split
  · next hloop => exact absurd hloop hreach
  · rfl

/-- The real path of a path that settles is its place. -/
theorem eq_of_realPath (hp : h.Settles p q) (hr : h.realPath p = .ok real) :
    real = Store.pathOf q :=
  Except.ok.inj (hr.symm.trans (hp.realPath (realPath_eq_ok hr).1))

/-- Paths that settle at one place have one real path. -/
theorem realPath_congr {p' : Path} (hp : h.Settles p q) (hp' : k.Settles p' q)
    (hsound : p'.isSound = p.isSound) : k.realPath p' = h.realPath p := by
  cases hs : p.isSound with
  | false => rw [realPath_of_not_isSound hs, realPath_of_not_isSound (hsound.trans hs)]
  | true => rw [hp.realPath hs, hp'.realPath (hsound.trans hs)]

/-- Seen from two paths that settle at one place, a path settles at one place. -/
theorem rejoin {d e p : Path} (hp : h.Settles (d.join p) q) (hd : h.Settles d base)
    (he : h.Settles e base) : h.Settles (e.join p) q := by
  obtain ⟨n, hr⟩ := hp
  obtain ⟨m, hdm⟩ := hd
  obtain ⟨m', hem⟩ := he
  rw [absolute_join] at hr
  obtain ⟨n', hr'⟩ := hr.rejoin hdm hem
  rw [← absolute_join] at hr'
  exact ⟨n', hr'⟩

end Settles

/-- A place without links on its way is where its own path settles. -/
theorem settles_pathOf (hs : h.store.IsStraight q) : h.Settles (Store.pathOf q) q := by
  have hs' : h.store.IsStraight ([] ++ q) := hs
  exact ⟨0, hs'.resolves⟩

/-- The path of a place leads there, if the way there is no link. -/
theorem leads_pathOf (hq : Store.IsNamed q) (hs : h.store.IsStraight q)
    (hway : h.store.IsWay q.dropLast) : h.Leads (Store.pathOf q) q := by
  have hs' : h.store.IsStraight ([] ++ q) := hs
  exact ⟨hq.sound, fun _ => ⟨hq.short, hs'.arrives_of_isWay hway hq.fit⟩⟩

/-- The path of a file or of a directory that lies in directories leads there and settles there. -/
theorem leads_of_seen {node : Node} (hq : Store.IsNamed q) (hway : h.store.IsWay q.dropLast)
    (hseen : h.store.seen q = some node) (hnode : ∀ target, node ≠ .link target) :
    h.Leads (Store.pathOf q) q ∧ h.Settles (Store.pathOf q) q := by
  have hstraight := Store.isStraight_of_isWay hq.up hway fun target ht =>
    hnode target (Option.some.inj (hseen.symm.trans ht))
  exact ⟨leads_pathOf hq hstraight hway, settles_pathOf hstraight⟩

/-- No file can be written where the way is not there, or where something else is. -/
theorem writing_refused (hs : h.store.IsStraight q)
    (hno : ¬ (h.store.IsWay q.dropLast ∧ h.store.IsLeaf q)) (content : List UInt8) :
    ∃ e, h.writing (Store.pathOf q) content = .error e := by
  cases hw : h.writing (Store.pathOf q) content with
  | error e => exact ⟨e, rfl⟩
  | ok c =>
    obtain ⟨r, ht, hleaf⟩ := leaf_of_writing hw
    have hs' : h.store.IsStraight ([] ++ q) := hs
    obtain ⟨rfl, -⟩ := hs'.arrives ht.leads.arrives
    exact absurd ⟨ht.leads.arrives.isWay h.store.isWay_root, hleaf⟩ hno

theorem Targets.settles (ht : h.Targets p q) : h.Settles p q := ht.leads.arrives.resolves

/-- A path that leads over no link at its end leads into the place where its directory settles. -/
theorem Leads.settles_parent {name : String} (hl : h.Leads (p.child name) q) (hup : name ≠ "..") :
    ∃ base, h.Settles p base ∧ q = base ++ [name] := by
  have ha := (hl.leads false).arrives
  rw [absolute_child] at ha
  obtain ⟨n, base, hr, hq⟩ := ha.resolves_parent hup
  exact ⟨base, ⟨n, hr⟩, hq⟩

/-! ## Hosts with the same links -/

/-- Two hosts with the same links. -/
structure SameLinks (h k : Host) : Prop where
  workingDirectory : k.workingDirectory = h.workingDirectory
  links : ∀ q target, k.store.seen q = some (.link target) ↔ h.store.seen q = some (.link target)

namespace SameLinks

theorem trans (hk : SameLinks h k) (kl : SameLinks k l) : SameLinks h l :=
  ⟨kl.workingDirectory.trans hk.workingDirectory,
    fun q target => (kl.links q target).trans (hk.links q target)⟩

theorem of_extends (hw : k.workingDirectory = h.workingDirectory)
    (he : h.store.Extends k.store) : SameLinks h k :=
  ⟨hw, fun _ _ => he.link_iff⟩

theorem of_differs (hd : DiffersOn P h k) : SameLinks h k :=
  ⟨hd.workingDirectory, fun _ _ => ⟨hd.ways.symm.link, hd.ways.link⟩⟩

theorem absolute (hk : SameLinks h k) (p : Path) : k.absolute p = h.absolute p := by
  rw [Host.absolute, Host.absolute, hk.workingDirectory]

theorem isStraight (hk : SameLinks h k) (hs : h.store.IsStraight q) : k.store.IsStraight q :=
  ⟨hs.up, fun r hr target ht => hs.unlinked r hr target ((hk.links r target).mp ht)⟩

/-- Where paths settle depends on links only. -/
theorem settles (hk : SameLinks h k) (hp : h.Settles p q) : k.Settles p q := by
  obtain ⟨n, hr⟩ := hp
  exact ⟨n, by rw [hk.absolute]; exact hr.of_links hk.links⟩

end SameLinks

/-! ## Hosts with more files -/

theorem isFile_iff : h.isNode Node.isFile p = .ok true ↔
    ∃ q content mode, h.Targets p q ∧ h.store.seen q = some (.file content mode (.counted 0)) := by
  constructor
  · intro hf
    obtain ⟨q, n, hnode, hn⟩ := isNode_eq_true hf
    obtain ⟨hs, hl, hg⟩ := node_eq_ok hnode
    cases n with
    | file content mode changed => exact ⟨q, content, mode, ⟨hs, hl⟩, Store.seen_of_get? hg⟩
    | directory mode changed => cases hn
    | link target => cases hn
  · rintro ⟨q, content, mode, ht, hs⟩
    rw [ht.isNode_eq fun n => by cases n <;> rfl, hs]
    rfl

/-- Directories were added, and then files where nothing was, at some places. -/
def Adds (P : Place → Prop) (h k : Host) : Prop :=
  ∃ m : Host, m.workingDirectory = h.workingDirectory ∧ h.store.Extends m.store ∧ DiffersOn P m k ∧
    ∀ q, P q → m.store.seen q = none

namespace Adds

theorem sameLinks (hk : Adds P h k) : SameLinks h k := by
  obtain ⟨m, hw, he, hd, -⟩ := hk
  exact (SameLinks.of_extends hw he).trans (.of_differs hd)

/-- What could be read can be read as before. -/
theorem bytes (hk : Adds P h k) {content : List UInt8} (hb : h.bytes p = .ok content) :
    k.bytes p = .ok content := by
  obtain ⟨m, hw, he, hd, hfree⟩ := hk
  obtain ⟨q, mode, ht, hs⟩ := targets_of_bytes hb
  have hm : m.Targets p q :=
    ⟨ht.sound, by rw [(SameLinks.of_extends hw he).absolute]; exact ht.leads.of_extends he⟩
  have hseen : m.store.seen q = some (.file content mode (.counted 0)) := he.seen hs
  refine hd.bytes (fun r hr hp => ?_) (hm.bytes_of_file hseen)
  rw [hm.unique hr, hfree r hp.1] at hseen
  cases hseen

theorem text (hk : Adds P h k) {s : String} (ht : h.text p = .ok s) : k.text p = .ok s := by
  rw [Host.text] at ht ⊢
  cases hb : h.bytes p with
  | error e =>
    rw [hb] at ht
    cases ht
  | ok content =>
    rw [hb] at ht
    rw [hk.bytes hb]
    exact ht

/-- A real path leads to a file as before, unless it is one of the others. -/
theorem isFile_iff (hk : Adds P h k) (hr : h.store.IsRooted) (hq : h.store.IsStraight q) (hp : ¬ P q) :
    h.isNode Node.isFile (Store.pathOf q) = .ok true ↔
      k.isNode Node.isFile (Store.pathOf q) = .ok true := by
  rw [Host.isFile_iff, Host.isFile_iff]
  obtain ⟨m, hw, he, hd, hfree⟩ := hk
  have hqm : m.store.IsStraight ([] ++ q) := (SameLinks.of_extends hw he).isStraight hq
  constructor
  · rintro ⟨r, content, mode, ht, hs⟩
    have hm : m.Targets (Store.pathOf q) r := ⟨ht.sound, ht.leads.of_extends he⟩
    have hseen : m.store.seen r = some (.file content mode (.counted 0)) := he.seen hs
    refine ⟨r, content, mode, hd.targets hm, ?_⟩
    rw [hd.others, hseen]
    intro hpr
    rw [hfree r hpr] at hseen
    cases hseen
  · rintro ⟨r, content, mode, ht, hs⟩
    have hm := hd.targets_iff.mp ht
    obtain rfl : r = q := (hqm.arrives hm.leads.arrives).1
    rw [hd.others _ hp] at hs
    have hseen : h.store.seen r = some (.file content mode (.counted 0)) := by
      rw [← he.seen_eq, hs]
      rintro ⟨mode', hm'⟩
      cases hs.symm.trans hm'
    refine ⟨r, content, mode, ⟨hm.sound, ?_⟩, hseen⟩
    exact hq.leads_of_leads hqm hr (by rw [hseen]; exact Option.some_ne_none _) hm.leads

end Adds

end Host
end Vitrine
