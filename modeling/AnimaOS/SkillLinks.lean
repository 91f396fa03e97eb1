import AnimaOS.PathSegments
import AnimaOS.SkillRegistry

/-!
# The files a skill links to

All places of a text where a link target begins, against those that the scan of
`extractLocalLinks` reaches, and where a linked file can be.
-/

namespace SkillRegistry

open PathSegments TextSplit

/-! ## Link targets -/

/-- The target of a link that begins with a text. -/
def linkTarget (text : List Char) : Option (List Char) :=
  (stripPrefix [']', '('] text).bind fun rest => (splitOnce [')'] rest).map Prod.fst

/-- Every `](target)` of a text, in order. -/
def linkTargets (text : List Char) : List (List Char) := text.tails.filterMap linkTarget

/-- Every target that begins inside a target, and so ends with it. -/
def nestedTargets (target : List Char) : List (List Char) :=
  target.tails.filterMap (stripPrefix [']', '('])

/-- The targets that the scan reaches. -/
inductive Scanned : List Char → List (List Char) → Prop
  | done {text : List Char} (unlinked : linkTargets text = []) : Scanned text []
  | link {gap target rest : List Char} {targets : List (List Char)}
      (first : ∀ earlier later, gap ++ ([']', '('] ++ (target ++ ')' :: rest)) =
        earlier ++ ([']', '('] ++ later) → gap.length ≤ earlier.length)
      (closed : ')' ∉ target) (tail : Scanned rest targets) :
      Scanned (gap ++ ([']', '('] ++ (target ++ ')' :: rest))) (target :: targets)

theorem linkTargets_cons (c : Char) (text : List Char) :
    linkTargets (c :: text) = (linkTarget (c :: text)).toList ++ linkTargets text := by
  rw [linkTargets, List.tails_cons, List.filterMap_cons]
  cases linkTarget (c :: text) <;> rfl

theorem linkTargets_skip {c : Char} {text : List Char}
    (misses : ∀ rest, c :: text ≠ [']', '('] ++ rest) : linkTargets (c :: text) = linkTargets text := by
  rw [linkTargets_cons, linkTarget, stripPrefix_none misses]
  rfl

/-- No target begins in the gap before the first link. -/
theorem linkTargets_gap {gap rest : List Char}
    (first : ∀ earlier later, gap ++ rest = earlier ++ ([']', '('] ++ later) →
      gap.length ≤ earlier.length) : linkTargets (gap ++ rest) = linkTargets rest := by
  induction gap with
  | nil => rfl
  | cons c gap ih =>
    have misses : ∀ later, c :: (gap ++ rest) ≠ [']', '('] ++ later := fun later starts =>
      absurd (first [] later starts) (Nat.not_succ_le_zero _)
    rw [List.cons_append, linkTargets_skip misses]
    refine ih fun earlier later same => ?_
    exact Nat.le_of_succ_le_succ (first (c :: earlier) later (congrArg (c :: ·) same))

theorem linkTarget_closed {target : List Char} (closed : ')' ∉ target) (rest : List Char) :
    linkTarget (target ++ ')' :: rest) = stripPrefix [']', '('] target := by
  cases opens : stripPrefix [']', '('] target with
  | some inner =>
    obtain rfl := stripPrefix_some opens
    have closed' : ')' ∉ inner := fun listed => closed (List.mem_append_right _ listed)
    rw [linkTarget, List.append_assoc, stripPrefix_append, Option.bind_some,
      splitOnce_char closed', Option.map_some]
  | none =>
    have misses : ∀ later, target ++ ')' :: rest ≠ [']', '('] ++ later := by
      intro later starts
      match target, opens, starts with
      | [], _, starts => simp at starts
      | [_], _, starts => simp at starts
      | a :: b :: inner, opens, starts =>
        obtain ⟨rfl, rfl, -⟩ : a = ']' ∧ b = '(' ∧ inner ++ ')' :: rest = later := by
          simpa using starts
        have here := stripPrefix_append [']', '('] inner
        cases opens.symm.trans here
    rw [linkTarget, stripPrefix_none misses]
    rfl

/-- The targets that begin inside a target are its ends. -/
theorem linkTargets_target {target : List Char} (closed : ')' ∉ target) (rest : List Char) :
    linkTargets (target ++ ')' :: rest) = nestedTargets target ++ linkTargets rest := by
  induction target with
  | nil =>
    rw [List.nil_append, linkTargets_skip fun later starts => by simp at starts]
    rfl
  | cons c target ih =>
    have own := linkTarget_closed closed rest
    have others := ih fun listed => closed (List.mem_cons_of_mem c listed)
    rw [List.cons_append] at own ⊢
    have nested : nestedTargets (c :: target) =
        (stripPrefix [']', '('] (c :: target)).toList ++ nestedTargets target := by
      rw [nestedTargets, List.tails_cons, List.filterMap_cons]
      cases stripPrefix [']', '('] (c :: target) <;> rfl
    rw [linkTargets_cons, own, others, nested, List.append_assoc]

theorem linkTargets_link {target : List Char} (closed : ')' ∉ target) (rest : List Char) :
    linkTargets ([']', '('] ++ (target ++ ')' :: rest)) =
      target :: (nestedTargets target ++ linkTargets rest) := by
  have own : linkTarget (']' :: '(' :: (target ++ ')' :: rest)) = some target := by
    have opened := stripPrefix_append [']', '('] (target ++ ')' :: rest)
    rw [List.cons_append, List.cons_append, List.nil_append] at opened
    rw [linkTarget, opened, Option.bind_some, splitOnce_char closed, Option.map_some]
  have bracket : linkTargets ('(' :: (target ++ ')' :: rest)) =
      linkTargets (target ++ ')' :: rest) :=
    linkTargets_skip fun later starts => by simp at starts
  rw [List.cons_append, List.cons_append, List.nil_append, linkTargets_cons, own, bracket,
    linkTargets_target closed]
  rfl

/-- The scan reaches every target but those inside one that it has reached. -/
theorem Scanned.all {text : List Char} {targets : List (List Char)} (scan : Scanned text targets) :
    linkTargets text = targets.flatMap fun target => target :: nestedTargets target := by
  induction scan with
  | done unlinked => rw [unlinked, List.flatMap_nil]
  | link first closed tail ih =>
    rw [linkTargets_gap first, linkTargets_link closed, ih, List.flatMap_cons]
    rfl

theorem linkTargets_unclosed {text : List Char} (unclosed : ∀ before rest,
    text = before ++ ([']', '('] ++ rest) → splitOnce [')'] rest = none) :
    linkTargets text = [] := by
  refine List.filterMap_eq_nil_iff.mpr fun tail listed => ?_
  obtain ⟨before, rfl⟩ := (List.mem_tails _ _).mp listed
  rw [linkTarget]
  cases opens : stripPrefix [']', '('] tail with
  | none => rfl
  | some rest =>
    obtain rfl := stripPrefix_some opens
    rw [Option.bind_some, unclosed before rest rfl, Option.map_none]

/-- When nothing closes the first opening, nothing closes a later one. -/
theorem linkTargets_unended {text gap afterOpen : List Char}
    (opened : splitOnce [']', '('] text = some (gap, afterOpen))
    (unended : splitOnce [')'] afterOpen = none) : linkTargets text = [] := by
  obtain ⟨whole, first⟩ := splitOnce_eq_some opened
  have unclosed : ')' ∉ afterOpen := fun listed => by
    obtain ⟨before, after, same⟩ := List.append_of_mem listed
    exact splitOnce_eq_none unended before after same
  refine linkTargets_unclosed fun before rest other => ?_
  have later : rest <:+ text := ⟨before ++ [']', '('], by rw [other, List.append_assoc]⟩
  have inside : afterOpen <:+ text := ⟨gap ++ [']', '('], by rw [whole, List.append_assoc]⟩
  have shorter : rest.length ≤ afterOpen.length := by
    have lengths := congrArg List.length (whole.symm.trans other)
    have apart := first before rest other
    simp only [List.length_append] at lengths
    omega
  have part := List.suffix_of_suffix_length_le later inside shorter
  exact splitOnce_none fun listed => unclosed (part.subset listed)

theorem linksFrom_scanned {fuel : Nat} {text : List Char} (enough : text.length ≤ fuel) :
    ∃ targets, Scanned text targets ∧
      linksFrom fuel text = (targets.filter isSafeLocalLink).map String.ofList := by
  induction fuel generalizing text with
  | zero =>
    obtain rfl := List.length_eq_zero_iff.mp (Nat.le_zero.mp enough)
    exact ⟨[], .done rfl, rfl⟩
  | succ fuel ih =>
    rw [linksFrom]
    cases opened : splitOnce [']', '('] text with
    | none =>
      have unlinked : linkTargets text = [] :=
        linkTargets_unclosed fun before rest whole =>
          absurd whole (splitOnce_eq_none opened before rest)
      exact ⟨[], .done unlinked, rfl⟩
    | some cut =>
      obtain ⟨gap, afterOpen⟩ := cut
      obtain ⟨whole, first⟩ := splitOnce_eq_some opened
      simp only
      cases ended : splitOnce [')'] afterOpen with
      | none => exact ⟨[], .done (linkTargets_unended opened ended), rfl⟩
      | some cut =>
        obtain ⟨target, afterClose⟩ := cut
        obtain ⟨rfl, closed⟩ := splitOnce_char_some.mp ended
        subst whole
        have shorter : afterClose.length ≤ fuel := by
          simp only [List.length_append, List.length_cons] at enough
          omega
        obtain ⟨targets, scan, rest⟩ := ih shorter
        refine ⟨target :: targets, .link first closed scan, ?_⟩
        simp only [rest, List.filter_cons]
        split <;> rfl

/-- More fuel than characters changes nothing: the scan ends by itself. -/
theorem linksFrom_fuel {fuel fuel' : Nat} {text : List Char} (enough : text.length ≤ fuel)
    (enough' : text.length ≤ fuel') : linksFrom fuel text = linksFrom fuel' text := by
  induction fuel generalizing fuel' text with
  | zero =>
    obtain rfl := List.length_eq_zero_iff.mp (Nat.le_zero.mp enough)
    cases fuel' <;> rfl
  | succ fuel ih =>
    cases fuel' with
    | zero =>
      obtain rfl := List.length_eq_zero_iff.mp (Nat.le_zero.mp enough')
      rfl
    | succ fuel' =>
      rw [linksFrom, linksFrom]
      cases opened : splitOnce [']', '('] text with
      | none => rfl
      | some cut =>
        obtain ⟨gap, afterOpen⟩ := cut
        have whole := congrArg List.length (splitOnce_eq_some opened).1
        simp only
        cases ended : splitOnce [')'] afterOpen with
        | none => rfl
        | some cut =>
          obtain ⟨target, afterClose⟩ := cut
          have part := congrArg List.length (splitOnce_char_some.mp ended).1
          simp only [List.length_append, List.length_cons] at whole part
          have same : linksFrom fuel afterClose = linksFrom fuel' afterClose :=
            ih (by omega) (by omega)
          simp only [same]

/-! ## Where a linked file is -/

/-- Which characters separate the components of a path. -/
inductive PathStyle
  | slash | backslash | either
deriving DecidableEq

def PathStyle.isSeparator : PathStyle → Char → Bool
  | slash, c => c = '/'
  | backslash, c => c = '\\'
  | either, c => c = '/' ∨ c = '\\'

def PathStyle.components (style : PathStyle) (path : List Char) : List (List Char) :=
  path.splitOnP style.isSeparator

/-- The components on the way down that are left of a path. -/
def PathStyle.resolved (style : PathStyle) (path : List Char) : List (List Char) :=
  resolve ['.'] ['.', '.'] (style.components path)

/-- A path that does not start from where it is appended. -/
def isAbsolute (path : List Char) : Bool :=
  path.head? = some '/' ∨ path.head? = some '\\' ∨
    (path.head?.any fun c => c.utf8Size = 1) ∧ path[1]? = some ':'

def appended (sep : Char) (dir target : List Char) : List Char :=
  if isAbsolute target then target else dir ++ sep :: target

theorem isSafeLocalLink_relative {target : List Char} (safe : isSafeLocalLink target = true) :
    isAbsolute target = false ∧ ['.', '.'] ∉ PathStyle.either.components target := by
  rw [isSafeLocalLink] at safe
  split at safe
  · cases safe
  · split at safe
    · cases safe
    · rename_i rootless
      split at safe
      · cases safe
      · rename_i driveless
        rw [not_or] at rootless
        refine ⟨?_, ?_⟩
        · simpa [isAbsolute, rootless.1, rootless.2] using driveless
        · have same : PathStyle.either.isSeparator = fun c => decide (c = '/' ∨ c = '\\') := rfl
          rw [PathStyle.components, same]
          simpa using safe

/-- A component for some separators has no other inside and is one for more separators. -/
theorem mem_splitOnP_finer {p q : Char → Bool} (finer : ∀ c, p c = true → q c = true)
    {seg : List Char} (plain : ∀ c ∈ seg, q c = false) {text : List Char}
    (listed : seg ∈ text.splitOnP p) : seg ∈ text.splitOnP q := by
  induction size : text.length using Nat.strong_induction_on generalizing text with
  | _ n ih =>
    have halves := List.takeWhile_append_dropWhile (p := fun c => !p c) (l := text)
    have front : ∀ c ∈ text.takeWhile fun c => !p c, p c = false := fun c inside => by
      simpa using List.mem_takeWhile_imp inside
    cases back : text.dropWhile fun c => !p c with
    | nil =>
      rw [back, List.append_nil] at halves
      rw [halves] at front
      rw [List.splitOnP_eq_singleton front, List.mem_singleton] at listed
      subst listed
      rw [List.splitOnP_eq_singleton plain]
      exact List.mem_singleton_self _
    | cons s rest =>
      have sep : p s = true := by
        have stops := List.head?_dropWhile_not (fun c => !p c) text
        rw [back] at stops
        simpa using stops
      rw [back] at halves
      rw [← halves, List.splitOnP_append_cons_of_forall_mem front s sep, List.mem_cons] at listed
      rw [← halves, List.splitOnP_append_cons _ _ (finer s sep), List.mem_append]
      rcases listed with rfl | later
      · rw [List.splitOnP_eq_singleton plain]
        exact .inl (List.mem_singleton_self _)
      · refine .inr (ih rest.length ?_ later rfl)
        rw [← size, ← halves, List.length_append, List.length_cons]
        omega

theorem within_style {target : List Char} (safe : isSafeLocalLink target = true)
    (style : PathStyle) : ['.', '.'] ∉ style.components target := by
  intro listed
  refine (isSafeLocalLink_relative safe).2 (mem_splitOnP_finer (fun c sep => ?_) ?_ listed)
  · cases style <;> simp_all [PathStyle.isSeparator]
  · simp [PathStyle.isSeparator]

/-- A safe target stays below every directory it is appended to. -/
theorem resolved_appended {target : List Char} (safe : isSafeLocalLink target = true)
    {style : PathStyle} {sep : Char} (separates : style.isSeparator sep = true) (dir : List Char) :
    style.resolved dir <+: style.resolved (appended sep dir target) := by
  have relative := (isSafeLocalLink_relative safe).1
  have split : style.components (dir ++ sep :: target) =
      style.components dir ++ style.components target :=
    List.splitOnP_append_cons dir target separates
  rw [appended, relative, if_neg Bool.false_ne_true]
  rw [PathStyle.resolved, PathStyle.resolved, split, resolve, resolve, List.foldl_append]
  exact prefix_foldl_enter (within_style safe style) _

/-- The linked files of a text are the safe ones among its link targets in order, without
those inside a target scanned before, and each of them is in the skill's directory. -/
theorem linked_files_inside (text : List Char) :
    (∀ fuel, text.length ≤ fuel → linksFrom fuel text = extractLocalLinks text) ∧
    (∃ targets : List (List Char),
      linkTargets text = targets.flatMap (fun target => target :: nestedTargets target) ∧
      extractLocalLinks text = (targets.filter isSafeLocalLink).map String.ofList) ∧
    ∀ file ∈ extractLocalLinks text, ∀ (style : PathStyle) (sep : Char) (dir : List Char),
      style.isSeparator sep = true →
        style.resolved dir <+: style.resolved (appended sep dir file.toList) := by
  obtain ⟨targets, scan, found⟩ := linksFrom_scanned (Nat.le_refl text.length)
  refine ⟨fun fuel enough => linksFrom_fuel enough (Nat.le_refl _), ⟨targets, scan.all, found⟩,
    fun file listed style sep dir separates => ?_⟩
  rw [extractLocalLinks, found] at listed
  obtain ⟨target, kept, rfl⟩ := List.mem_map.mp listed
  rw [String.toList_ofList]
  exact resolved_appended (List.mem_filter.mp kept).2 separates dir

theorem guide_below_skill :
    PathStyle.either.resolved ['d'] <+:
      PathStyle.either.resolved (appended '/' ['d'] (String.ofList ['a', '/', 'b']).toList) :=
  (linked_files_inside [']', '(', 'a', '/', 'b', ')']).2.2 (String.ofList ['a', '/', 'b'])
    (by decide) .either '/' ['d'] rfl

/-- A target inside another is not returned. -/
theorem nested_target_skipped :
    linkTargets [']', '(', 'x', ']', '(', 'a', ')'] = [['x', ']', '(', 'a'], ['a']] ∧
      isSafeLocalLink ['a'] = true ∧
      extractLocalLinks [']', '(', 'x', ']', '(', 'a', ')'] = ["x](a"] := by
  decide

end SkillRegistry
