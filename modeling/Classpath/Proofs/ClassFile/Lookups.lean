import Classpath.Proofs.ClassFile.Pool

/-!
Look-ups in a constant pool as chains of references. A chain is told without looking anything up: an
index, what is wanted there, and where a constant of the wanted kind leads. A look-up goes along its
chain in order, ends at the first link that does not hold, and otherwise comes back with the texts
at the ends.

Main statement: `Pool.lookups_follow_chains`, for the five kinds of look-up and any pool.
-/

set_option autoImplicit false

namespace Classpath.Pool

/-- What is wanted of a constant. -/
inductive Wanted where
  | text
  /-- A text, or a constant that points at one. -/
  | textual
  | className
  | nameAndType
  | member
  deriving DecidableEq, Repr

/-- An index that is followed, and what is wanted there. -/
structure Link where
  index : UInt16
  wanted : Wanted
  deriving DecidableEq, Repr

namespace Wanted

/-- How a fault calls what is wanted. -/
def label : Wanted → String
  | text => "Utf8"
  | textual => "string-like constant"
  | className => "Class"
  | nameAndType => "NameAndType"
  | member => "member reference"

/-- Where a constant of the wanted kind leads, in the order in which that is followed. A constant
of another kind leads nowhere. -/
def targets? : Wanted → Constant → Option (List Link)
  | text, .utf8 _ => some []
  | textual, .utf8 _ => some []
  | textual, .classRef target | textual, .stringRef target | textual, .methodType target
  | textual, .moduleRef target | textual, .packageRef target => some [⟨target, text⟩]
  | className, .classRef name => some [⟨name, text⟩]
  | nameAndType, .nameAndType name descriptor => some [⟨name, text⟩, ⟨descriptor, text⟩]
  | member, .fieldRef owner shape | member, .methodRef owner shape
  | member, .interfaceMethodRef owner shape => some [⟨shape, nameAndType⟩, ⟨owner, className⟩]
  | _, _ => none

/-- The most links that there are from here to the ends, this one with them. -/
def reach : Wanted → Nat
  | text => 1
  | textual | className => 2
  | nameAndType => 3
  | member => 6

end Wanted

variable (pool : Pool)

/-- Why a link does not hold, where it does not. -/
def fault? (link : Link) : Option Cause :=
  match pool.get? link.index with
  | none => some (.poolIndexOutOfRange link.index pool.size)
  | some constant =>
      match link.wanted.targets? constant with
      | none => some (.poolTypeMismatch link.index link.wanted.label)
      | some _ => none

/-- The links behind one; none behind one that does not hold. -/
def onward (link : Link) : List Link :=
  ((pool.get? link.index).bind link.wanted.targets?).getD []

/-- A link with all that is behind it, each link in front of what it leads to. -/
def chain (link : Link) : List Link :=
  link :: (pool.onward link).flatMap fun next => next :: pool.onward next

/-- The text at an end of a chain. -/
def textAt? (link : Link) : Option String :=
  match pool.get? link.index with
  | some (.utf8 text) => some text
  | _ => none

/-- The texts of a look-up, in the order in which they are found. -/
def lookUp (wanted : Wanted) (index : UInt16) : Except Error (List String) :=
  match wanted with
  | .text => (pool.utf8 index).map fun text => [text]
  | .textual => (pool.stringAt index).map fun text => [text]
  | .className => (pool.className index).map fun name => [name]
  | .nameAndType => (pool.nameAndType index).map fun found => [found.1, found.2]
  | .member => (pool.memberRef index).map fun found =>
      [found.name, found.descriptor, found.className]

/-- Going along links: the first that does not hold ends it. -/
def follow : List Link → Except Error (List String)
  | [] => .ok []
  | link :: rest =>
      match pool.fault? link with
      | some cause => .error (.ofCause cause)
      | none => (follow rest).map fun texts => (pool.textAt? link).toList ++ texts

theorem follow_append (front back : List Link) :
    pool.follow (front ++ back) = (do
      let texts ← pool.follow front
      return texts ++ (← pool.follow back)) := by
  induction front with
  | nil =>
      rw [List.nil_append, follow]
      cases pool.follow back <;> rfl
  | cons link rest ih =>
      rw [List.cons_append, follow, follow, ih]
      cases pool.fault? link with
      | some cause => rfl
      | none =>
          cases pool.follow rest with
          | error error => rfl
          | ok texts =>
              cases pool.follow back with
              | error error => rfl
              | ok others => simp [Except.map, bind, Except.bind, pure, Except.pure]

/-- Links are gone along to the end exactly if they all hold. -/
theorem follow_eq_ok_iff (links : List Link) (texts : List String) :
    pool.follow links = .ok texts ↔
      (∀ link ∈ links, pool.fault? link = none) ∧ links.filterMap pool.textAt? = texts := by
  induction links generalizing texts with
  | nil => simp [follow]
  | cons link rest ih =>
      have one : (link :: rest).filterMap pool.textAt? =
          (pool.textAt? link).toList ++ rest.filterMap pool.textAt? := by
        rw [List.filterMap_cons]
        cases pool.textAt? link <;> rfl
      rw [follow, List.forall_mem_cons, one]
      cases pool.fault? link with
      | some cause => simp
      | none =>
          have passes : (pool.follow rest).map (fun others =>
              (pool.textAt? link).toList ++ others) = .ok texts ↔
                ∃ others, pool.follow rest = .ok others ∧
                  (pool.textAt? link).toList ++ others = texts := by
            cases pool.follow rest <;> simp [Except.map]
          refine passes.trans ?_
          constructor
          · rintro ⟨others, followed, rfl⟩
            obtain ⟨sound, rfl⟩ := (ih others).mp followed
            exact ⟨⟨rfl, sound⟩, rfl⟩
          · rintro ⟨⟨_, sound⟩, rfl⟩
            exact ⟨_, (ih _).mpr ⟨sound, rfl⟩, rfl⟩

/-- Otherwise the first that does not hold is to blame. -/
theorem follow_eq_error_iff (links : List Link) (error : Error) :
    pool.follow links = .error error ↔
      ∃ front link back cause, links = front ++ link :: back ∧
        (∀ sound ∈ front, pool.fault? sound = none) ∧ pool.fault? link = some cause ∧
        error = .ofCause cause := by
  induction links with
  | nil => simp [follow]
  | cons first rest ih =>
      rw [follow]
      cases holds : pool.fault? first with
      | some cause =>
          constructor
          · intro failed
            cases failed
            exact ⟨[], first, rest, cause, rfl, nofun, holds, rfl⟩
          · rintro ⟨front, link, back, other, split, sound, broken, rfl⟩
            cases front with
            | nil =>
                obtain ⟨rfl, rfl⟩ := List.cons.inj split
                rw [holds] at broken
                cases broken
                rfl
            | cons head tail =>
                obtain ⟨rfl, _⟩ := List.cons.inj split
                rw [sound first (List.mem_cons_self ..)] at holds
                cases holds
      | none =>
          have passes : (pool.follow rest).map (fun texts =>
              (pool.textAt? first).toList ++ texts) = .error error ↔
                pool.follow rest = .error error := by
            cases pool.follow rest <;> simp [Except.map]
          refine passes.trans (ih.trans ?_)
          constructor
          · rintro ⟨front, link, back, cause, rfl, sound, broken, blamed⟩
            exact ⟨first :: front, link, back, cause, rfl,
              List.forall_mem_cons.mpr ⟨holds, sound⟩, broken, blamed⟩
          · rintro ⟨front, link, back, cause, split, sound, broken, blamed⟩
            cases front with
            | nil =>
                obtain ⟨rfl, rfl⟩ := List.cons.inj split
                rw [holds] at broken
                cases broken
            | cons head tail =>
                obtain ⟨rfl, rfl⟩ := List.cons.inj split
                exact ⟨tail, link, back, cause, rfl, (List.forall_mem_cons.mp sound).2, broken,
                  blamed⟩

/-! Each look-up against its chain, by what stands at the index. -/

section Chains

variable {pool : Pool} {index : UInt16}

/-- All that can be behind a link. -/
theorem onward_cases (link : Link) :
    pool.onward link = [] ∨
      (link.wanted = .textual ∨ link.wanted = .className) ∧
        (∃ target, pool.onward link = [⟨target, .text⟩]) ∨
      link.wanted = .nameAndType ∧
        (∃ name descriptor, pool.onward link = [⟨name, .text⟩, ⟨descriptor, .text⟩]) ∨
      link.wanted = .member ∧
        ∃ shape owner, pool.onward link = [⟨shape, .nameAndType⟩, ⟨owner, .className⟩] := by
  obtain ⟨index, wanted⟩ := link
  unfold onward
  cases pool.get? index with
  | none => exact Or.inl rfl
  | some constant =>
      rw [Option.bind_some]
      unfold Wanted.targets?
      split <;> simp_all

theorem onward_of_text {link : Link} (text : link.wanted = .text) : pool.onward link = [] := by
  rcases pool.onward_cases link with nothing | ⟨other, _⟩ | ⟨other, _⟩ | ⟨other, _⟩
  · exact nothing
  · rw [text] at other
    rcases other with other | other <;> cases other
  · rw [text] at other
    cases other
  · rw [text] at other
    cases other

/-- Only a member leads to anything but texts. -/
theorem wanted_of_mem_onward {link next : Link} (leads : next ∈ pool.onward link) :
    next.wanted = .text ∨
      link.wanted = .member ∧ (next.wanted = .nameAndType ∨ next.wanted = .className) := by
  rcases pool.onward_cases link with nothing | ⟨_, _, all⟩ | ⟨_, _, _, all⟩ | ⟨deep, _, _, all⟩
  · rw [nothing] at leads
    cases leads
  · rw [all, List.mem_singleton] at leads
    exact Or.inl (congrArg Link.wanted leads)
  · rw [all, List.mem_pair] at leads
    rcases leads with here | here <;> exact Or.inl (congrArg Link.wanted here)
  · rw [all, List.mem_pair] at leads
    refine Or.inr ⟨deep, ?_⟩
    rcases leads with here | here
    · exact Or.inl (congrArg Link.wanted here)
    · exact Or.inr (congrArg Link.wanted here)

theorem lookUp_text : pool.lookUp .text index = pool.follow [⟨index, .text⟩] := by
  simp only [lookUp, utf8, entry, follow, fault?, textAt?]
  cases pool.get? index with
  | none => rfl
  | some constant => cases constant <;> rfl

/-- A constant that is no text and of the wanted kind adds no text and no fault of its own. -/
theorem follow_chain_of_targets {wanted : Wanted} {constant : Constant} {targets : List Link}
    (found : pool.get? index = some constant) (leads : wanted.targets? constant = some targets)
    (pointing : pool.textAt? ⟨index, wanted⟩ = none) :
    pool.follow (pool.chain ⟨index, wanted⟩) =
      pool.follow (targets.flatMap fun next => next :: pool.onward next) := by
  have sound : pool.fault? ⟨index, wanted⟩ = none := by simp only [fault?, found, leads]
  have behind : pool.onward ⟨index, wanted⟩ = targets := by
    simp only [onward, found, Option.bind_some, leads, Option.getD_some]
  rw [chain, behind, follow, sound]
  simp only [pointing, Option.toList_none, List.nil_append]
  cases pool.follow (targets.flatMap fun next => next :: pool.onward next) <;> rfl

/-- A constant that points at a text is as good as that text. -/
theorem follow_chain_of_target {wanted : Wanted} {constant : Constant} {target : UInt16}
    (found : pool.get? index = some constant)
    (leads : wanted.targets? constant = some [⟨target, .text⟩])
    (pointing : pool.textAt? ⟨index, wanted⟩ = none) :
    pool.follow (pool.chain ⟨index, wanted⟩) = pool.lookUp .text target := by
  rw [follow_chain_of_targets found leads pointing, lookUp_text, List.flatMap_singleton,
    onward_of_text rfl]

theorem lookUp_textual :
    pool.lookUp .textual index = pool.follow (pool.chain ⟨index, .textual⟩) := by
  cases found : pool.get? index with
  | none =>
      simp only [lookUp, stringAt, entry, chain, follow, fault?, found]
      rfl
  | some constant =>
      cases constant with
      | classRef target | stringRef target | methodType target | moduleRef target
      | packageRef target =>
          rw [follow_chain_of_target found rfl (by simp only [textAt?, found])]
          simp only [lookUp, stringAt, entry, found]
          rfl
      | utf8 text =>
          simp only [lookUp, stringAt, entry, chain, onward, follow, fault?, textAt?, found]
          rfl
      | _ =>
          simp only [lookUp, stringAt, entry, chain, follow, fault?, found]
          rfl

theorem lookUp_className :
    pool.lookUp .className index = pool.follow (pool.chain ⟨index, .className⟩) := by
  cases found : pool.get? index with
  | none =>
      simp only [lookUp, className, entry, chain, follow, fault?, found]
      rfl
  | some constant =>
      cases constant with
      | classRef name =>
          rw [follow_chain_of_target found rfl (by simp only [textAt?, found])]
          simp only [lookUp, className, entry, found]
          rfl
      | _ =>
          simp only [lookUp, className, entry, chain, follow, fault?, found]
          rfl

theorem lookUp_nameAndType :
    pool.lookUp .nameAndType index = pool.follow (pool.chain ⟨index, .nameAndType⟩) := by
  cases found : pool.get? index with
  | none =>
      simp only [lookUp, nameAndType, entry, chain, follow, fault?, found]
      rfl
  | some constant =>
      cases constant with
      | nameAndType name descriptor =>
          have both : [Link.mk name .text, ⟨descriptor, .text⟩].flatMap
              (fun next => next :: pool.onward next) =
                [⟨name, .text⟩] ++ [⟨descriptor, .text⟩] := by
            simp only [List.flatMap_cons, List.flatMap_nil, onward_of_text, List.append_nil]
          rw [follow_chain_of_targets found rfl (by simp only [textAt?, found]), both,
            follow_append, ← lookUp_text, ← lookUp_text]
          simp only [lookUp, nameAndType, entry, found, bind, Except.bind]
          cases pool.utf8 name with
          | error error => rfl
          | ok text => cases pool.utf8 descriptor <;> rfl
      | _ =>
          simp only [lookUp, nameAndType, entry, chain, follow, fault?, found]
          rfl

theorem chain_eq_cons {wanted : Wanted} (shallow : wanted ≠ .member) :
    pool.chain ⟨index, wanted⟩ = ⟨index, wanted⟩ :: pool.onward ⟨index, wanted⟩ := by
  have alone : ∀ next ∈ pool.onward ⟨index, wanted⟩, next :: pool.onward next = [next] := by
    intro next leads
    rcases wanted_of_mem_onward leads with text | ⟨deep, _⟩
    · rw [onward_of_text text]
    · exact absurd deep shallow
  rw [chain, List.flatMap_congr alone, List.flatMap_singleton']

/-- Behind a member there are a name with a descriptor and then a class, each with its texts. -/
theorem flatMap_of_member (shape owner : UInt16) :
    [Link.mk shape .nameAndType, ⟨owner, .className⟩].flatMap
        (fun next => next :: pool.onward next) =
      pool.chain ⟨shape, .nameAndType⟩ ++ pool.chain ⟨owner, .className⟩ := by
  have shapeShallow : Wanted.nameAndType ≠ .member := nofun
  have ownerShallow : Wanted.className ≠ .member := nofun
  rw [chain_eq_cons shapeShallow, chain_eq_cons ownerShallow]
  simp only [List.flatMap_cons, List.flatMap_nil, List.append_nil]

theorem lookUp_member : pool.lookUp .member index = pool.follow (pool.chain ⟨index, .member⟩) := by
  cases found : pool.get? index with
  | none =>
      simp only [lookUp, memberRef, entry, chain, follow, fault?, found]
      rfl
  | some constant =>
      cases constant with
      | fieldRef owner shape | methodRef owner shape | interfaceMethodRef owner shape =>
          rw [follow_chain_of_targets found rfl (by simp only [textAt?, found]), flatMap_of_member,
            follow_append, ← lookUp_nameAndType, ← lookUp_className]
          simp only [lookUp, memberRef, entry, found, bind, Except.bind]
          cases pool.nameAndType shape with
          | error error => rfl
          | ok pair => cases pool.className owner <;> rfl
      | _ =>
          simp only [lookUp, memberRef, entry, chain, follow, fault?, found]
          rfl

/-- Every look-up goes along its chain. -/
theorem lookUp_eq_follow (wanted : Wanted) :
    pool.lookUp wanted index = pool.follow (pool.chain ⟨index, wanted⟩) := by
  cases wanted with
  | text =>
      have shallow : Wanted.text ≠ .member := nofun
      rw [lookUp_text, chain_eq_cons shallow, onward_of_text rfl]
  | textual => exact lookUp_textual
  | className => exact lookUp_className
  | nameAndType => exact lookUp_nameAndType
  | member => exact lookUp_member

/-- A chain is whole: nothing that its links lead to is outside it. -/
theorem mem_chain_of_onward {start link next : Link} (inside : link ∈ pool.chain start)
    (leads : next ∈ pool.onward link) : next ∈ pool.chain start := by
  have within {first : Link} (leadsFirst : first ∈ pool.onward start) {other : Link}
      (behind : other ∈ first :: pool.onward first) : other ∈ pool.chain start :=
    List.mem_cons_of_mem _ (List.mem_flatMap.mpr ⟨first, leadsFirst, behind⟩)
  rcases List.mem_cons.mp inside with rfl | behind
  · exact within leads (List.mem_cons_self ..)
  · obtain ⟨first, leadsFirst, here⟩ := List.mem_flatMap.mp behind
    rcases List.mem_cons.mp here with rfl | deeper
    · exact within leadsFirst (List.mem_cons_of_mem _ leads)
    · -- two links in there are only texts, which lead nowhere
      have text : link.wanted = .text := by
        rcases wanted_of_mem_onward deeper with text | ⟨deep, _⟩
        · exact text
        · rcases wanted_of_mem_onward leadsFirst with other | ⟨_, other | other⟩ <;>
            rw [other] at deep <;> cases deep
      rw [onward_of_text text] at leads
      cases leads

/-- Behind what wants no member, there are at most two texts. -/
theorem length_chain_le (wanted : Wanted) :
    (pool.chain ⟨index, wanted⟩).length ≤ wanted.reach := by
  have bounded (index : UInt16) (wanted : Wanted) (shallow : wanted ≠ .member) :
      (pool.chain ⟨index, wanted⟩).length ≤ wanted.reach := by
    rw [chain_eq_cons shallow, List.length_cons]
    rcases pool.onward_cases ⟨index, wanted⟩ with
      nothing | ⟨one, _, all⟩ | ⟨two, _, _, all⟩ | ⟨deep, _⟩
    · rw [nothing]
      cases wanted <;> decide
    · rw [all]
      rcases one with rfl | rfl <;> exact Nat.le_refl 2
    · rw [all]
      cases two
      exact Nat.le_refl 3
    · exact absurd deep shallow
  by_cases deep : wanted = .member
  · cases deep
    rcases pool.onward_cases ⟨index, .member⟩ with
      nothing | ⟨other | other, _⟩ | ⟨other, _⟩ | ⟨_, shape, owner, all⟩
    · rw [chain, nothing]
      exact Nat.le_add_left 1 5
    · cases other
    · cases other
    · cases other
    · have front := bounded shape .nameAndType nofun
      have back := bounded owner .className nofun
      rw [chain, all, flatMap_of_member, List.length_cons, List.length_append]
      simp only [Wanted.reach] at front back ⊢
      omega
  · exact bounded index wanted deep

/-- Nothing but the links of a chain says what the chain is and what comes of it. -/
theorem follow_chain_congr {other : Pool} {start : Link} (sized : other.size = pool.size)
    (same : ∀ link ∈ pool.chain start, other.get? link.index = pool.get? link.index) :
    other.follow (other.chain start) = pool.follow (pool.chain start) := by
  have onwardSame {link : Link} (inside : link ∈ pool.chain start) :
      other.onward link = pool.onward link := by
    unfold onward
    rw [same link inside]
  have chainSame : other.chain start = pool.chain start := by
    have first := onwardSame (List.mem_cons_self ..)
    rw [chain, chain, first]
    congr 1
    apply List.flatMap_congr
    intro next leads
    rw [onwardSame (mem_chain_of_onward (List.mem_cons_self ..) leads)]
  rw [chainSame]
  generalize pool.chain start = links at same
  induction links with
  | nil => rfl
  | cons link rest ih =>
      have here := same link (List.mem_cons_self ..)
      rw [follow, follow, ih fun next inside => same next (List.mem_cons_of_mem _ inside)]
      simp only [fault?, textAt?, here, sized]

end Chains

/-- Text-like is what is a text, and what is a class. -/
theorem stringAt_eq_of_className (index : UInt16) (name : String)
    (found : pool.className index = .ok name) : pool.stringAt index = .ok name := by
  unfold className at found
  unfold stringAt
  cases looked : pool.entry index with
  | error reason =>
      rw [looked] at found
      cases found
  | ok constant =>
      rw [looked] at found
      cases constant with
      | classRef target => exact found
      | _ => cases found

/-- Any look-up succeeds exactly if all links of its chain hold, with the texts at the ends, and
otherwise blames the first that does not. The chain is short and whole whatever the references are,
and nothing else of the pool matters. What is a text or the name of a class is text-like. -/
theorem lookups_follow_chains (wanted : Wanted) (index : UInt16) :
    (∀ texts, pool.lookUp wanted index = .ok texts ↔
      (∀ link ∈ pool.chain ⟨index, wanted⟩, pool.fault? link = none) ∧
        (pool.chain ⟨index, wanted⟩).filterMap pool.textAt? = texts) ∧
    (∀ error, pool.lookUp wanted index = .error error ↔
      ∃ front link back cause, pool.chain ⟨index, wanted⟩ = front ++ link :: back ∧
        (∀ sound ∈ front, pool.fault? sound = none) ∧ pool.fault? link = some cause ∧
        error = .ofCause cause) ∧
    (∀ text, pool.utf8 index = .ok text ∨ pool.className index = .ok text →
      pool.stringAt index = .ok text) ∧
    (pool.chain ⟨index, wanted⟩).length ≤ wanted.reach ∧
    (∀ link ∈ pool.chain ⟨index, wanted⟩, ∀ next ∈ pool.onward link,
      next ∈ pool.chain ⟨index, wanted⟩) ∧
    ∀ other : Pool, other.size = pool.size →
      (∀ link ∈ pool.chain ⟨index, wanted⟩, other.get? link.index = pool.get? link.index) →
        other.lookUp wanted index = pool.lookUp wanted index := by
  refine ⟨?_, ?_, ?_, length_chain_le wanted, ?_, ?_⟩
  · intro texts
    rw [lookUp_eq_follow]
    exact pool.follow_eq_ok_iff _ texts
  · intro error
    rw [lookUp_eq_follow]
    exact pool.follow_eq_error_iff _ error
  · intro text found
    rcases found with found | found
    · exact pool.stringAt_eq_of_utf8 index text found
    · exact pool.stringAt_eq_of_className index text found
  · intro link inside next leads
    exact mem_chain_of_onward inside leads
  · intro other sized same
    rw [lookUp_eq_follow, lookUp_eq_follow]
    exact follow_chain_congr sized same

/-- A pool with a reference to a method, and a class that is its own name. -/
def looped : Pool :=
  ⟨#[none, some (.methodRef 2 3), some (.classRef 4), some (.nameAndType 5 6),
    some (.utf8 "Box"), some (.utf8 "get"), some (.utf8 "()I"), some (.classRef 7)]⟩

theorem lookups_follow_chains_looped :
    looped.lookUp .member 1 = .ok ["get", "()I", "Box"] ∧
      looped.lookUp .className 7 = .error (.ofCause (.poolTypeMismatch 7 "Utf8")) ∧
      looped.stringAt 2 = .ok "Box" := by
  refine ⟨?_, ?_, ?_⟩
  · apply ((looped.lookups_follow_chains .member 1).1 _).mpr
    decide
  · apply ((looped.lookups_follow_chains .className 7).2.1 _).mpr
    exact ⟨[⟨7, .className⟩], ⟨7, .text⟩, [], .poolTypeMismatch 7 "Utf8", by decide, by decide,
      by decide, rfl⟩
  · exact (looped.lookups_follow_chains .className 2).2.2.1 "Box" (Or.inr (by decide))

end Classpath.Pool
