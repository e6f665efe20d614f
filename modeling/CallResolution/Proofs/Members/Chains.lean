import CallResolution.Proofs.Members.Origins
import Mathlib.Data.List.Chain

/-!
# Chains of callables

A class keeps its methods of each name in a chain: it knows the first and the last one, and
each of them is linked to the next. Its constructors are linked in the same way. The links of
all classes lie together, found by the numbers of callables, and accessors, which are numbered
along with everything else, are in no chain.

`Universe.Chains` relates a universe to a log of what was added to classes: a chain goes
through the callables that have joined it according to the log, in the order of the log.
Adding a callable adds to the log, and whatever else happens leaves all chains alone
(`SameChains`).

A class knows the ends of its chains, the links lie in one list for all classes, and the
numbers of callables tell the order in which they came. These three are kept in step by one
function, and the invariant has a part for each of them: for a new callable
`linked_addMethod`, `heads_addMethod` and `tails_addMethod`, `methods_addMethod` and
`ctors_addMethod`, and `increasing_addMethod` say what becomes of it, and `Chains.addMethod`
puts them together. The log itself is no part of a universe. It is what the links are compared
with, so that the theorem says what following them gives and not only that they are
consistent.

That following the links ends is shown without a measure on universes: a chain is a list
without repeats, and the search without a bound (`seekChain?`) is followed along it.

Main statements: `Chains.addMethod` (a callable is added), `Chains.overloads_eq` and
`Chains.seekOverloads_eq` (following the links goes through the chain, and comes to an end
also without a bound), `Populated.chains` (there is such a log at every stage of a run), and
`Populated.overloads_eq`, by which the overloads of a name are the declared methods that have
it.
-/

namespace CallResolution

/-- The chains of a class. -/
inductive ChainName where
  /-- The constructors. -/
  | constructors
  /-- The methods of a name. -/
  | overloads (name : String)
  deriving DecidableEq, Repr

/-- The chain of its class that a callable joins. An accessor joins none. -/
def Method.chain? (m : Method) : Option ChainName :=
  if m.isConstructor then some .constructors
  else if m.flags.isAccessor then none
  else some (.overloads m.name)

/-- The methods of a name are joined by the methods that have it, apart from accessors. -/
theorem Method.chain?_eq_overloads {m : Method} {name : String} :
    m.chain? = some (.overloads name) ↔ ¬ m.isConstructor ∧ ¬ m.flags.isAccessor ∧ m.name = name := by
  unfold chain?
  cases m.isConstructor <;> cases m.flags.isAccessor <;> simp

/-- The constructors are joined by every constructor. -/
theorem Method.chain?_eq_constructors {m : Method} : m.chain? = some .constructors ↔ m.isConstructor := by
  unfold chain?
  cases m.isConstructor <;> cases m.flags.isAccessor <;> simp

/-- The last callable of a chain, as the class knows it. -/
def ClassMembers.last? (c : ClassMembers) : ChainName → Option MethodId
  | .constructors => c.ctors.getLast?
  | .overloads name => c.tails.lookup name

/-- A callable that was added to a class. -/
structure Addition where
  /-- The class behind the owner. -/
  cls : TypeId
  /-- The callable as it was handed in. -/
  method : Method
  /-- Its number. -/
  id : MethodId
  deriving DecidableEq, Repr

/-- Whether an addition has joined a chain of a class. -/
def Addition.joins (a : Addition) (cls : TypeId) (c : ChainName) : Bool :=
  a.cls = cls && a.method.chain? = some c

theorem Addition.joins_iff {a : Addition} {cls : TypeId} {c : ChainName} :
    a.joins cls c ↔ a.cls = cls ∧ a.method.chain? = some c := by
  simp [joins]

/-! ## Declarations that stay

Chains are told by names and owners, and these never change.
-/

/-- The declarations of callables stay. -/
def SameDeclarations (ms ms' : Array Method) : Prop :=
  ∀ (i : Nat) (m : Method), ms[i]? = some m → ∃ m', ms'[i]? = some m' ∧ m.SameDeclaration m'

namespace SameDeclarations

variable {ms ms' ms'' : Array Method}

theorem of_eq (h : ms' = ms) : SameDeclarations ms ms' :=
  fun _ m hm => ⟨m, h ▸ hm, .refl m⟩

theorem refl (ms : Array Method) : SameDeclarations ms ms :=
  .of_eq rfl

theorem trans (h : SameDeclarations ms ms') (h' : SameDeclarations ms' ms'') : SameDeclarations ms ms'' := by
  intro i m hm
  obtain ⟨m', hm', hsame⟩ := h i m hm
  obtain ⟨m'', hm'', hsame'⟩ := h' i m' hm'
  exact ⟨m'', hm'', hsame.trans hsame'⟩

/-- There are as many callables at least. -/
theorem size_le (h : SameDeclarations ms ms') : ms.size ≤ ms'.size := by
  by_contra hlt
  have hin : ms'.size < ms.size := Nat.lt_of_not_le hlt
  obtain ⟨m', hm', -⟩ := h ms'.size _ (Array.getElem?_eq_getElem hin)
  simp at hm'

/-- A callable is added. -/
theorem push (ms : Array Method) (m : Method) : SameDeclarations ms (ms.push m) := by
  intro i m' hm'
  have hin : i < ms.size := (Array.getElem?_eq_some_iff.mp hm').1
  exact ⟨m', by rw [Array.getElem?_push_lt hin, ← hm', Array.getElem?_eq_getElem hin], .refl m'⟩

/-- A callable is changed in something that is not declared. -/
theorem modify (ms : Array Method) (i : Nat) {f : Method → Method} (hf : ∀ m : Method, m.SameDeclaration (f m)) :
    SameDeclarations ms (ms.modify i f) := by
  intro j m hm
  rw [Array.getElem?_modify]
  split
  · exact ⟨f m, by rw [hm]; rfl, hf m⟩
  · exact ⟨m, hm, .refl m⟩

/-- Several callables are changed so. -/
theorem foldl_modify (ids : List MethodId) {f : Method → Method} (hf : ∀ m : Method, m.SameDeclaration (f m)) (ms : Array Method) :
    SameDeclarations ms (ids.foldl (fun ms id => ms.modify (id.index - 1) f) ms) := by
  induction ids generalizing ms with
  | nil => exact .refl ms
  | cons id ids ih => exact (modify ms _ hf).trans (ih _)

/-- A callable is still found, with the same declaration. -/
theorem method? {u u' : Universe} (h : SameDeclarations u.methods u'.methods) {id : MethodId} {m : Method}
    (hm : u.method? id = some m) : ∃ m', u'.method? id = some m' ∧ m.SameDeclaration m' := by
  obtain ⟨hid, hplace⟩ := Universe.method?_eq_some_iff.mp hm
  obtain ⟨m', hm', hsame⟩ := h _ m hplace
  exact ⟨m', Universe.method?_eq_some_iff.mpr ⟨hid, hm'⟩, hsame⟩

end SameDeclarations

namespace Universe

variable {u u' : Universe} {log : List Addition} {ids : List MethodId} {id : MethodId}

/-! ## Following links

The program follows links from the first callable of a chain on, a bounded number of times.
That the bound is the number of callables makes it no restriction.
-/

/-- Each callable is linked to the next one, and nothing behind the last. The links of other
chains lie in the same list, so this speaks of the links of these callables only. -/
def Linked (u : Universe) (ids : List MethodId) : Prop :=
  (ids ++ [MethodId.none]).IsChain fun a b => u.next a = b

theorem linked_cons : u.Linked (id :: ids) ↔ u.next id = ids.head?.getD .none ∧ u.Linked ids := by
  unfold Linked
  cases ids <;> simp [List.isChain_cons_cons]

/-- Callables stay linked when the links behind them stay. -/
theorem Linked.congr (h : u.Linked ids) (same : ∀ x ∈ ids, u'.next x = u.next x) : u'.Linked ids := by
  induction ids with
  | nil => simp [Linked]
  | cons x ids ih =>
    rw [linked_cons] at h ⊢
    exact ⟨(same x List.mem_cons_self).trans h.1, ih h.2 fun y hy => same y (List.mem_cons_of_mem _ hy)⟩

/-- A chain with one more callable, to which nothing but the last one was linked. -/
theorem Linked.concat (h : u.Linked ids) (nodup : ids.Nodup)
    (next : ∀ x ∈ ids, u'.next x = if ids.getLast? = some x then id else u.next x) (ends : u'.next id = .none) :
    u'.Linked (ids ++ [id]) := by
  induction ids with
  | nil => simpa [Linked] using ends
  | cons x ids ih =>
    obtain ⟨hlink, hlinked⟩ := linked_cons.mp h
    obtain ⟨hnew, hrest⟩ := List.nodup_cons.mp nodup
    have hx := next x List.mem_cons_self
    rw [List.cons_append, linked_cons]
    cases ids with
    | nil =>
      rw [List.getLast?_singleton, if_pos rfl] at hx
      exact ⟨hx, ih hlinked hrest (by simp)⟩
    | cons y ids =>
      -- The first callable is not the last one, as none is there twice, so its link stays.
      have hlast : (x :: y :: ids).getLast? = (y :: ids).getLast? := List.getLast?_cons_cons
      have hne : (y :: ids).getLast? ≠ some x := fun heq => hnew (List.mem_of_getLast? heq)
      rw [hlast, if_neg hne, hlink] at hx
      exact ⟨hx, ih hlinked hrest fun z hz => by rw [next z (List.mem_cons_of_mem _ hz), hlast]⟩

/-- Following the links goes through a chain that is not longer than the bound. -/
theorem Linked.chainWithin_eq (h : u.Linked ids) (hsome : ∀ x ∈ ids, x.isSome) {fuel : Nat} (hfuel : ids.length ≤ fuel) :
    u.chainWithin fuel (ids.head?.getD .none) = ids := by
  induction ids generalizing fuel with
  | nil => cases fuel <;> rfl
  | cons x ids ih =>
    obtain ⟨hnext, hrest⟩ := linked_cons.mp h
    cases fuel with
    | zero => simp at hfuel
    | succ fuel =>
      have hx : x.isSome := hsome x List.mem_cons_self
      simp only [List.head?_cons, Option.getD_some, chainWithin, hx, if_true, hnext]
      rw [ih hrest (fun y hy => hsome y (List.mem_cons_of_mem _ hy)) (by simpa using hfuel)]

/-- The callables of a chain from one of them on, with no bound on their number. There is no
result when the links go on for ever. -/
def seekChain? (u : Universe) (id : MethodId) : Option (List MethodId) :=
  if id.isSome then do
    let rest ← u |>.seekChain? (u.next id)
    return id :: rest
  else some []
partial_fixpoint

/-- The declared methods of a name, as they are linked, with no bound on their number. -/
def seekOverloads? (u : Universe) (t : TypeId) (name : String) : Option (List MethodId) :=
  u.seekChain? (((u.membersOf t).heads.lookup name).getD .none)

/-- Following the links of a chain comes to an end. -/
theorem Linked.seekChain_eq (h : u.Linked ids) (hsome : ∀ x ∈ ids, x.isSome) :
    u.seekChain? (ids.head?.getD .none) = some ids := by
  induction ids with
  | nil =>
    rw [seekChain?.eq_def]
    rfl
  | cons x ids ih =>
    obtain ⟨hnext, hrest⟩ := linked_cons.mp h
    have hx : x.isSome := hsome x List.mem_cons_self
    rw [seekChain?.eq_def]
    simp only [List.head?_cons, Option.getD_some, hx, if_true, hnext]
    rw [ih hrest fun y hy => hsome y (List.mem_cons_of_mem _ hy)]
    rfl

/-! ## The log of a universe

What was added to classes, in order. The log is told from outside, and a universe is compared
with it.
-/

/-- The numbers of what has joined a chain of a class. -/
def chainIn (log : List Addition) (cls : TypeId) (c : ChainName) : List MethodId :=
  (log.filter (·.joins cls c)).map (·.id)

theorem mem_chainIn {cls : TypeId} {c : ChainName} : id ∈ chainIn log cls c ↔ ∃ a ∈ log, a.joins cls c ∧ a.id = id := by
  simp [chainIn, and_assoc]

theorem chainIn_concat (log : List Addition) (a : Addition) (cls : TypeId) (c : ChainName) :
    chainIn (log ++ [a]) cls c = if a.joins cls c then chainIn log cls c ++ [a.id] else chainIn log cls c := by
  unfold chainIn
  rw [List.filter_append, List.map_append]
  by_cases h : a.joins cls c <;> simp [h]

/-- The chains of all classes go through what was added to them. The fields are kept together
because each of them needs the others: where a new callable is linked is found by the last
one, and that is found by the name. -/
structure Chains (u : Universe) (log : List Addition) : Prop where
  /-- Numbers are given in order. -/
  increasing : (log.map (·.id.index)).Pairwise (· < ·)
  /-- They are numbers of callables that are still declared as they were added. -/
  stored : ∀ a ∈ log, ∃ m, u.method? a.id = some m ∧ (declaredAs a.method).SameDeclaration m
  /-- The methods of a class. -/
  methods : ∀ cls, (u.entry cls).methods =
    (log.filter fun a => a.cls = cls && !a.method.isConstructor && !a.method.flags.isAccessor).map (·.id)
  /-- The constructors of a class. -/
  ctors : ∀ cls, (u.entry cls).ctors = chainIn log cls .constructors
  /-- The first method of a name. -/
  heads : ∀ cls name, (u.entry cls).heads.lookup name = (chainIn log cls (.overloads name)).head?
  /-- The last method of a name. -/
  tails : ∀ cls name, (u.entry cls).tails.lookup name = (chainIn log cls (.overloads name)).getLast?
  /-- The links. -/
  linked : ∀ cls c, u.Linked (chainIn log cls c)
  /-- Nothing is linked behind a number that is not given yet. -/
  unlinked : ∀ id, u.methods.size < id.index → u.next id = .none

namespace Chains

variable {cls cls' : TypeId} {c c' : ChainName}

/-- No number is given twice. -/
theorem eq_of_id (h : u.Chains log) {a b : Addition} (ha : a ∈ log) (hb : b ∈ log) (hid : a.id = b.id) : a = b :=
  List.inj_on_of_nodup_map (h.increasing.imp fun hlt => Nat.ne_of_lt hlt) ha hb (congrArg MethodId.index hid)

/-- A callable is in one chain at most. -/
theorem eq_of_mem (h : u.Chains log) (hid : id ∈ chainIn log cls c) (hid' : id ∈ chainIn log cls' c') : cls = cls' ∧ c = c' := by
  obtain ⟨a, ha, hjoins, rfl⟩ := mem_chainIn.mp hid
  obtain ⟨b, hb, hjoins', heq⟩ := mem_chainIn.mp hid'
  obtain rfl := h.eq_of_id hb ha heq
  rw [Addition.joins_iff] at hjoins hjoins'
  exact ⟨hjoins.1.symm.trans hjoins'.1, Option.some.inj (hjoins.2.symm.trans hjoins'.2)⟩

/-- A chain goes through no callable twice. -/
theorem nodup (h : u.Chains log) (cls : TypeId) (c : ChainName) : (chainIn log cls c).Nodup := by
  have hids : (log.map (·.id)).Nodup := by
    refine List.Nodup.of_map (f := MethodId.index) ?_
    rw [List.map_map]
    exact h.increasing.imp fun hlt => Nat.ne_of_lt hlt
  exact hids.sublist (List.filter_sublist.map _)

/-- There are as many callables as numbers were given at least. -/
theorem numbered (h : u.Chains log) {a : Addition} (ha : a ∈ log) : 0 < a.id.index ∧ a.id.index ≤ u.methods.size := by
  obtain ⟨m, hm, -⟩ := h.stored a ha
  obtain ⟨hid, hplace⟩ := method?_eq_some_iff.mp hm
  have hin : a.id.index - 1 < u.methods.size := (Array.getElem?_eq_some_iff.mp hplace).1
  have hpos : a.id.index ≠ 0 := fun hzero => hid (congrArg MethodId.mk hzero)
  omega

/-- The numbers in a chain are given. -/
theorem index_mem (h : u.Chains log) (hid : id ∈ chainIn log cls c) : 0 < id.index ∧ id.index ≤ u.methods.size := by
  obtain ⟨a, ha, -, rfl⟩ := mem_chainIn.mp hid
  exact h.numbered ha

theorem isSome_of_mem (h : u.Chains log) (hid : id ∈ chainIn log cls c) : id.isSome := by
  have hpos := (h.index_mem hid).1
  refine bne_iff_ne.mpr ?_
  rintro rfl
  exact absurd hpos (Nat.lt_irrefl 0)

/-- There are as many callables as a chain has at least. -/
theorem length_le (h : u.Chains log) (cls : TypeId) (c : ChainName) : (chainIn log cls c).length ≤ u.methods.size := by
  have hnodup : ((chainIn log cls c).map MethodId.index).Nodup :=
    (h.nodup cls c).map fun a b hab => by
      cases a
      cases b
      exact congrArg MethodId.mk hab
  have hsub : (chainIn log cls c).map MethodId.index ⊆ List.range' 1 u.methods.size := by
    intro i hi
    obtain ⟨id, hid, rfl⟩ := List.mem_map.mp hi
    have hgiven := h.index_mem hid
    rw [List.mem_range'_1]
    omega
  simpa using (List.subperm_of_subset hnodup hsub).length_le

/-- The last callable of a chain is the one that the class knows. -/
theorem last?_eq (h : u.Chains log) (cls : TypeId) (c : ChainName) : (u.entry cls).last? c = (chainIn log cls c).getLast? := by
  cases c with
  | constructors => exact congrArg List.getLast? (h.ctors cls)
  | overloads name => exact h.tails cls name

/-! ### What the links give -/

/-- The overloads of a name are the methods of its chain. -/
theorem overloads_eq (h : u.Chains log) (t : TypeId) (name : String) :
    u.overloads t name = chainIn log (u.types.classOf t) (.overloads name) := by
  unfold overloads
  rw [membersOf_eq_entry, h.heads]
  exact (h.linked _ _).chainWithin_eq (fun _ => h.isSome_of_mem) (h.length_le _ _)

/-- Without a bound the links give the same. -/
theorem seekOverloads_eq (h : u.Chains log) (t : TypeId) (name : String) :
    u.seekOverloads? t name = some (u.overloads t name) := by
  rw [h.overloads_eq]
  unfold seekOverloads?
  rw [membersOf_eq_entry, h.heads]
  exact (h.linked _ _).seekChain_eq fun _ => h.isSome_of_mem

/-- The constructors of a class are those of their chain. -/
theorem constructors_eq (h : u.Chains log) (t : TypeId) :
    u.constructors t = chainIn log (u.types.classOf t) .constructors :=
  (congrArg ClassMembers.ctors (membersOf_eq_entry u t)).trans (h.ctors _)

end Chains

/-! ## A callable is added

One function numbers the callable, lists it in its class and links it. What it does to each
part of the invariant is said by one lemma.
-/

/-- A new callable is linked behind the last one of its chain. -/
theorem lastBefore_eq (m : Method) (c : ClassMembers) : lastBefore m c = m.chain?.bind c.last? := by
  unfold lastBefore Method.chain?
  cases m.isConstructor <;> cases m.flags.isAccessor <;> rfl

/-- Behind the last callable of its chain comes the new one, and no other link changes. -/
theorem next_addMethod (m : Method) (u : Universe) (id : MethodId) : (addMethod m u).2.next id =
    if lastBefore m (u.membersOf m.owner) = some id then ⟨u.methods.size + 1⟩ else u.next id := by
  rw [addMethod_eq]
  unfold next linksWith
  cases lastBefore m (u.membersOf m.owner) with
  | none => rfl
  | some last =>
    by_cases h : last = id
    · subst h
      simp
    · have hne : id ≠ last := fun heq => h heq.symm
      simp [h, Assoc.lookup_put_of_ne hne]

/-- The class of a new callable gets it, and no other one. -/
theorem entry_addMethod (m : Method) (u : Universe) (cls : TypeId) : (addMethod m u).2.entry cls =
    if cls = u.types.classOf m.owner then withMember m ⟨u.methods.size + 1⟩ (u.entry cls) else u.entry cls := by
  rw [addMethod_eq, entry_put (u := u) (by rfl) (by rfl)]
  split
  · rename_i h
    rw [h, membersOf_eq_entry]
  · rfl

section WithMember

variable (m : Method) (id : MethodId) (c : ClassMembers) (name : String)

theorem withMember_ctors :
    (withMember m id c).ctors = if m.chain? = some .constructors then c.ctors ++ [id] else c.ctors := by
  unfold withMember Method.chain?
  cases m.isConstructor <;> cases m.flags.isAccessor <;> simp

/-- A method comes last of its name. -/
theorem withMember_tails : (withMember m id c).tails.lookup name =
    if m.chain? = some (.overloads name) then some id else c.tails.lookup name := by
  unfold withMember Method.chain?
  by_cases hctor : m.isConstructor
  · simp [hctor]
  by_cases haccessor : m.flags.isAccessor
  · simp [hctor, haccessor]
  by_cases h : m.name = name
  · simp [hctor, haccessor, h]
  · have hne : name ≠ m.name := fun heq => h heq.symm
    simp [hctor, haccessor, h, Assoc.lookup_put_of_ne hne]

/-- A method comes first of its name when there is no other one. -/
theorem withMember_heads (same : (c.tails.lookup name).isSome = (c.heads.lookup name).isSome) :
    (withMember m id c).heads.lookup name =
      if m.chain? = some (.overloads name) then (c.heads.lookup name).or (some id) else c.heads.lookup name := by
  unfold withMember Method.chain?
  by_cases hctor : m.isConstructor
  · simp [hctor]
  by_cases haccessor : m.flags.isAccessor
  · simp [hctor, haccessor]
  by_cases h : m.name = name
  · cases hhead : c.heads.lookup name <;> simp [hctor, haccessor, h, same, hhead]
  · have hne : name ≠ m.name := fun heq => h heq.symm
    cases (c.tails.lookup m.name).isSome <;> simp [hctor, haccessor, h, Assoc.lookup_put_of_ne hne]

end WithMember

theorem size_addMethod (m : Method) (u : Universe) : (addMethod m u).2.methods.size = u.methods.size + 1 := by
  rw [addMethod_eq]
  exact Array.size_push _

/-- What is logged when a callable is added. -/
def addition (u : Universe) (m : Method) : Addition where
  cls := u.types.classOf m.owner
  method := m
  id := (addMethod m u).1

theorem addition_id (u : Universe) (m : Method) : (u.addition m).id = ⟨u.methods.size + 1⟩ := by
  unfold addition
  rw [addMethod_eq]

/-- An addition has joined the chain of its class that the callable joins. -/
theorem joins_addition {m : Method} {cls : TypeId} {c : ChainName} :
    (u.addition m).joins cls c ↔ cls = u.types.classOf m.owner ∧ m.chain? = some c :=
  Addition.joins_iff.trans (and_congr_left' eq_comm)

namespace Chains

/-- The chain that a new callable joins ends in the callable that it is linked behind. -/
theorem lastBefore_eq (h : u.Chains log) (m : Method) : lastBefore m (u.membersOf m.owner) =
    m.chain?.bind fun c => (chainIn log (u.types.classOf m.owner) c).getLast? := by
  rw [Universe.lastBefore_eq, membersOf_eq_entry]
  exact congrArg _ (funext fun c => h.last?_eq _ c)

/-- Links of callables that no new one comes behind stay. -/
theorem next_addMethod_of_ne (h : u.Chains log) (m : Method)
    (hne : ∀ c, m.chain? = some c → id ∉ chainIn log (u.types.classOf m.owner) c) : (addMethod m u).2.next id = u.next id := by
  rw [next_addMethod, if_neg]
  rw [h.lastBefore_eq]
  intro hlast
  obtain ⟨c, hc, hid⟩ := Option.bind_eq_some_iff.mp hlast
  exact hne c hc (List.mem_of_getLast? hid)

/-- The chains of classes stay linked when a callable is added, which comes last in its chain.
-/
theorem linked_addMethod (h : u.Chains log) (m : Method) (cls : TypeId) (c : ChainName) :
    (addMethod m u).2.Linked (chainIn (log ++ [u.addition m]) cls c) := by
  rw [chainIn_concat, addition_id]
  split
  · -- The last callable of the chain is linked to the new one, and nothing is linked behind that.
    rename_i hjoins
    obtain ⟨rfl, hchain⟩ := joins_addition.mp hjoins
    have hlast : lastBefore m (u.membersOf m.owner) = (chainIn log (u.types.classOf m.owner) c).getLast? := by
      rw [h.lastBefore_eq, hchain]
      rfl
    refine (h.linked _ c).concat (h.nodup _ c) (fun x _ => by rw [next_addMethod, hlast]) ?_
    rw [h.next_addMethod_of_ne m fun c _ hmem => ?_]
    · exact h.unlinked _ (Nat.lt_succ_self _)
    · exact absurd (h.index_mem hmem).2 (Nat.not_succ_le_self _)
  · -- The callable that is linked anew is in another chain.
    rename_i hjoins
    refine (h.linked cls c).congr fun x hx => h.next_addMethod_of_ne m fun c' hc' hmem => hjoins ?_
    obtain ⟨rfl, rfl⟩ := h.eq_of_mem hx hmem
    exact joins_addition.mpr ⟨rfl, hc'⟩

/-- A callable gets the number behind all others. -/
theorem increasing_addMethod (h : u.Chains log) (m : Method) :
    ((log ++ [u.addition m]).map (·.id.index)).Pairwise (· < ·) := by
  rw [List.map_append, List.map_singleton, addition_id, List.pairwise_append]
  refine ⟨h.increasing, List.pairwise_singleton _ _, fun i hi j hj => ?_⟩
  obtain ⟨a, ha, rfl⟩ := List.mem_map.mp hi
  rw [List.mem_singleton.mp hj]
  exact Nat.lt_succ_of_le (h.numbered ha).2

/-- The callable that is added is stored, and the other ones stay. -/
theorem stored_addMethod (h : u.Chains log) (m : Method) {a : Addition} (ha : a ∈ log ++ [u.addition m]) :
    ∃ m', (addMethod m u).2.method? a.id = some m' ∧ (declaredAs a.method).SameDeclaration m' := by
  have hcallables : SameDeclarations u.methods (Universe.addMethod m u).2.methods := by
    rw [addMethod_eq]
    exact .push _ _
  rcases List.mem_append.mp ha with ha | ha
  · obtain ⟨m', hm', hdeclared⟩ := h.stored a ha
    obtain ⟨m'', hm'', hkept⟩ := hcallables.method? hm'
    exact ⟨m'', hm'', hdeclared.trans hkept⟩
  · rw [List.mem_singleton.mp ha, addition_id]
    exact ⟨declaredAs m, method?_addMethod m u, .refl _⟩

/-- A method comes last in its class. -/
theorem methods_addMethod (h : u.Chains log) (m : Method) (cls : TypeId) : ((addMethod m u).2.entry cls).methods =
    ((log ++ [u.addition m]).filter fun a => a.cls = cls && !a.method.isConstructor && !a.method.flags.isAccessor).map (·.id) := by
  rw [entry_addMethod, List.filter_append, List.map_append, ← h.methods]
  by_cases hcls : cls = u.types.classOf m.owner
  · rw [if_pos hcls, withMember_methods]
    cases hctor : m.isConstructor <;> cases haccessor : m.flags.isAccessor <;>
      simp [hcls, hctor, haccessor, addition, addMethod_eq]
  · have hne : ¬ u.types.classOf m.owner = cls := fun heq => hcls heq.symm
    simp [hcls, hne, addition]

/-- A constructor comes last among those of its class. -/
theorem ctors_addMethod (h : u.Chains log) (m : Method) (cls : TypeId) :
    ((addMethod m u).2.entry cls).ctors = chainIn (log ++ [u.addition m]) cls .constructors := by
  rw [entry_addMethod, chainIn_concat, addition_id, ← h.ctors]
  by_cases hcls : cls = u.types.classOf m.owner <;> simp [hcls, joins_addition, withMember_ctors]

/-- A method is the first one of its name when there was no other one. -/
theorem heads_addMethod (h : u.Chains log) (m : Method) (cls : TypeId) (name : String) :
    ((addMethod m u).2.entry cls).heads.lookup name = (chainIn (log ++ [u.addition m]) cls (.overloads name)).head? := by
  rw [entry_addMethod, chainIn_concat, addition_id]
  have hhead := h.heads cls name
  by_cases hcls : cls = u.types.classOf m.owner
  · have hsame : ((u.entry cls).tails.lookup name).isSome = ((u.entry cls).heads.lookup name).isSome := by
      rw [hhead, h.tails]
      cases chainIn log cls (.overloads name) <;> simp
    rw [if_pos hcls, withMember_heads _ _ _ _ hsame, hhead]
    by_cases hchain : m.chain? = some (.overloads name) <;> simp [hcls, joins_addition, hchain]
  · simp [hcls, joins_addition, hhead]

/-- A method is the last one of its name. -/
theorem tails_addMethod (h : u.Chains log) (m : Method) (cls : TypeId) (name : String) :
    ((addMethod m u).2.entry cls).tails.lookup name =
      (chainIn (log ++ [u.addition m]) cls (.overloads name)).getLast? := by
  rw [entry_addMethod, chainIn_concat, addition_id]
  have htail := h.tails cls name
  by_cases hcls : cls = u.types.classOf m.owner
  · rw [if_pos hcls, withMember_tails, htail]
    by_cases hchain : m.chain? = some (.overloads name) <;> simp [hcls, joins_addition, hchain]
  · simp [hcls, joins_addition, htail]

/-- A callable is added: it comes last in its chain, and it is logged. All other chains stay,
since the one link that changes is that of the callable which was the last of this chain. -/
theorem addMethod (h : u.Chains log) (m : Method) : (addMethod m u).2.Chains (log ++ [u.addition m]) where
  increasing := h.increasing_addMethod m
  stored _ ha := h.stored_addMethod m ha
  methods := h.methods_addMethod m
  ctors := h.ctors_addMethod m
  heads := h.heads_addMethod m
  tails := h.tails_addMethod m
  linked := h.linked_addMethod m
  unlinked id hid := by
    rw [size_addMethod] at hid
    rw [h.next_addMethod_of_ne m fun c _ hmem => ?_]
    · exact h.unlinked _ (by omega)
    · have hgiven := (h.index_mem hmem).2
      omega

end Chains

end Universe

/-! ## What leaves chains alone

All other changes of a universe.
-/

/-- The methods and constructors of a class stay, and so do its chains. -/
structure ClassMembers.SameChains (c c' : ClassMembers) : Prop where
  /-- The methods. -/
  methods : c'.methods = c.methods
  /-- The constructors. -/
  ctors : c'.ctors = c.ctors
  /-- The first method of each name. -/
  heads : c'.heads = c.heads
  /-- The last method of each name. -/
  tails : c'.tails = c.tails

namespace Universe

variable {u u' : Universe} {log : List Addition}

/-- The chains of all classes stay, and so do the declarations of callables. -/
structure SameChains (u u' : Universe) : Prop where
  /-- The members of classes. -/
  entries : ∀ cls, (u.entry cls).SameChains (u'.entry cls)
  /-- The links. -/
  links : u'.links = u.links
  /-- The callables. -/
  callables : SameDeclarations u.methods u'.methods

namespace SameChains

theorem trans {u'' : Universe} (h : SameChains u u') (h' : SameChains u' u'') : SameChains u u'' where
  entries cls := ⟨(h'.entries cls).methods.trans (h.entries cls).methods, (h'.entries cls).ctors.trans (h.entries cls).ctors,
    (h'.entries cls).heads.trans (h.entries cls).heads, (h'.entries cls).tails.trans (h.entries cls).tails⟩
  links := h'.links.trans h.links
  callables := h.callables.trans h'.callables

/-- The members of classes and the links are left alone. -/
theorem of_members (members : u'.members = u.members) (links : u'.links = u.links)
    (callables : SameDeclarations u.methods u'.methods) : SameChains u u' where
  entries cls := by
    unfold entry
    rw [members]
    cases u.members.lookup cls <;> exact ⟨rfl, rfl, rfl, rfl⟩
  links := links
  callables := callables

theorem refl (u : Universe) : SameChains u u :=
  of_members rfl rfl (.refl _)

/-- The members of one class are set, with the same chains. -/
theorem put {t : TypeId} {c : ClassMembers} (hc : (u.membersOf t).SameChains c)
    (members : u'.members = Assoc.put (u.types.classOf t) c u.members) (types : u'.types = u.types) (links : u'.links = u.links)
    (callables : SameDeclarations u.methods u'.methods) : SameChains u u' where
  entries cls := by
    rw [entry_put members types]
    split
    · rename_i h
      rw [h, ← membersOf_eq_entry]
      exact hc
    · exact ⟨rfl, rfl, rfl, rfl⟩
  links := links
  callables := callables

end SameChains

/-- Chains go on to go through what was added. -/
theorem Chains.of_same (h : u.Chains log) (hsame : SameChains u u') : u'.Chains log := by
  have hsize := hsame.callables.size_le
  have hnext (id : MethodId) : u'.next id = u.next id := by
    unfold next
    rw [hsame.links]
  refine ⟨h.increasing, fun a ha => ?_, fun cls => ?_, fun cls => ?_, fun cls name => ?_, fun cls name => ?_,
    fun cls c => (h.linked cls c).congr fun _ _ => hnext _, fun id hid => ?_⟩
  · obtain ⟨m, hm, hdeclared⟩ := h.stored a ha
    obtain ⟨m', hm', hkept⟩ := hsame.callables.method? hm
    exact ⟨m', hm', hdeclared.trans hkept⟩
  · rw [(hsame.entries cls).methods, h.methods]
  · rw [(hsame.entries cls).ctors, h.ctors]
  · rw [(hsame.entries cls).heads, h.heads]
  · rw [(hsame.entries cls).tails, h.tails]
  · rw [hnext]
    exact h.unlinked id (Nat.lt_of_le_of_lt hsize hid)

/-- A field is added, and no chain changes. -/
theorem sameChains_addField (f : Field) (u : Universe) : SameChains u (addField f u).2 := by
  rw [addField_eq]
  refine .put (t := f.owner) ?_ (by rfl) (by rfl) (by rfl) (.refl _)
  exact ⟨rfl, rfl, rfl, rfl⟩

/-- An accessor is numbered along with all callables, and it joins no chain. -/
theorem sameChains_withAccessor (u : Universe) (key : AccessorKey) (acc : Method) : SameChains u (u.withAccessor key acc) := by
  unfold withAccessor
  refine .put (t := acc.owner) ?_ (by rfl) (by rfl) (by rfl) (.push _ _)
  exact ⟨rfl, rfl, rfl, rfl⟩

/-- A move adds a callable to its class, or leaves all chains alone. Accessors and cloning
methods get numbers, but they are declared by no class. -/
theorem Move.chains_cases {mayFinish : Universe → TypeId → Prop} (h : Move mayFinish u u') :
    SameChains u u' ∨ ∃ m, u' = (addMethod m u).2 := by
  cases h with
  | method => exact .inr ⟨_, rfl⟩
  | @read id types f reports made reads =>
    refine .inl (.of_members rfl rfl (.modify _ _ fun m => ?_))
    obtain ⟨params, returns, throws, typeParams, signature, h⟩ := reads.frame m
    rw [h]
    exact ⟨rfl, rfl, rfl, rfl, rfl, rfl, rfl⟩
  | @field f known => exact .inl (sameChains_addField f u)
  | @accessor key acc known made => exact .inl (sameChains_withAccessor u key acc)
  | arrayMembers =>
    refine .inl ?_
    unfold Universe.arrayMembers
    rw [get_bind_apply]
    split
    · exact .refl u
    · exact .of_members rfl rfl (.push _ _)
  | @table cls st known unmade listed =>
    refine .inl (.put (t := cls) ?_ (by rfl) (by rfl) (by rfl) (.refl _))
    exact ⟨rfl, rfl, rfl, rfl⟩
  | @capture t name type known =>
    refine .inl ?_
    rcases addCapture_cases t name type u with ⟨c, -, h⟩ | ⟨-, -, h⟩ | ⟨-, -, h⟩
    · rw [h]
      exact .refl u
    · rw [h]
      exact .refl u
    · rw [h]
      refine (sameChains_addField (captureField t name type) u).trans (.put (t := t) ?_ (by rfl) (by rfl) (by rfl) (.refl _))
      exact ⟨rfl, rfl, rfl, rfl⟩
  | @finish t known may =>
    refine .inl ?_
    rcases completeClass_cases t u with ⟨-, h⟩ | ⟨-, h⟩
    · rw [h]
      exact .refl u
    · rw [h]
      refine .put (t := t) ?_ (by rfl) (by rfl) (by rfl) (.foldl_modify _ (fun m => ?_) _)
      · exact ⟨rfl, rfl, rfl, rfl⟩
      · exact ⟨rfl, rfl, rfl, rfl, rfl, rfl, rfl⟩
  | _ => exact .inl (.of_members rfl rfl (.refl _))

/-! ## What every universe starts with

The predefined classes list their callables in the order in which they were added, so their
chains are those of a log, too.
-/

/-- What is logged when several callables are added. -/
def additions (u : Universe) : List Method → List Addition
  | [] => []
  | m :: ms => u.addition m :: (addMethod m u).2.additions ms

/-- Several callables are added. -/
theorem Chains.addAll (h : u.Chains log) (ms : List Method) :
    (ms.foldl (fun u m => (Universe.addMethod m u).2) u).Chains (log ++ u.additions ms) := by
  induction ms generalizing u log with
  | nil => simpa [additions] using h
  | cons m ms ih =>
    have hrest := ih (h.addMethod m)
    rw [List.append_assoc] at hrest
    exact hrest

/-- Nothing was added to a universe without members. -/
theorem chains_empty (s : TypeStore) : Chains { types := s } [] where
  increasing := .nil
  stored := by simp
  methods _ := rfl
  ctors _ := rfl
  heads _ _ := rfl
  tails _ _ := rfl
  linked _ _ := List.isChain_singleton _
  unlinked _ _ := rfl

/-- What is added to a universe without members makes up its chains. -/
theorem chains_foldl_addMethod (s : TypeStore) (ms : List Method) :
    (ms.foldl (fun u m => (addMethod m u).2) { types := s }).Chains (additions { types := s } ms) := by
  have h := (chains_empty s).addAll ms
  rwa [List.nil_append] at h

/-- The callables of the predefined classes, in the order in which they are added. -/
def predefined : List Addition :=
  additions { types := initial.types } initial.methods.toList

/-- The predefined callables, added once more to classes without members. -/
def replayed : Universe :=
  initial.methods.toList.foldl (fun u m => (addMethod m u).2) { types := initial.types }

/-- The predefined classes list what was added to them, and nothing else. -/
theorem replayed_eq :
    initial.members = replayed.members ∧ initial.links = replayed.links ∧ initial.methods = replayed.methods := by
  decide +kernel

/-- The chains of the predefined classes. -/
theorem initial_chains : initial.Chains predefined := by
  have h : replayed.Chains predefined := chains_foldl_addMethod initial.types initial.methods.toList
  exact h.of_same (.of_members replayed_eq.1 replayed_eq.2.1 (.of_eq replayed_eq.2.2))

/-! ## Chains along a run

What holds of chains in the universe that was loaded holds of them at every stage.
-/

/-- Methods of a class are in the chain of their name, in the order in which the class lists
them. -/
theorem Chains.overloads_eq_filter (h : u.Chains log) (t : TypeId) (name : String) :
    u.overloads t name = (u.membersOf t).methods.filter fun id => (u.method id).name = name := by
  rw [h.overloads_eq, membersOf_eq_entry, h.methods]
  unfold chainIn
  rw [List.filter_map, List.filter_filter]
  refine congrArg _ (List.filter_congr fun a ha => ?_)
  obtain ⟨m, hm, hsame⟩ := h.stored a ha
  have hname := hsame.name
  rw [Function.comp, method_eq hm, hname, Bool.eq_iff_iff, Addition.joins_iff, Method.chain?_eq_overloads]
  unfold declaredAs
  cases a.method.isConstructor <;> cases a.method.flags.isAccessor <;> simp [and_comm]

/-- Only the predefined callables are in chains before anything is declared. -/
theorem Untouched.chains (h : u.Untouched) : u.Chains predefined :=
  initial_chains.of_same (.of_members h.members h.links (.of_eq h.methods))

/-- Whatever happens along a run, chains go through what was added to classes. -/
theorem Populated.chains (h : u.Populated) : ∃ log, u.Chains log := by
  refine h.keeps (I := fun v => ∃ log, v.Chains log) (fun v hv => ⟨_, hv.chains⟩) fun {v w} _ hmove hlog => ?_
  obtain ⟨log, hlog⟩ := hlog
  rcases hmove.chains_cases with hsame | ⟨m, rfl⟩
  · exact ⟨log, hlog.of_same hsame⟩
  · exact ⟨_, hlog.addMethod m⟩

/-- The overloads of a name are the declared methods that have it. -/
theorem Populated.overloads_eq (h : u.Populated) (t : TypeId) (name : String) :
    u.overloads t name = (u.membersOf t).methods.filter fun id => (u.method id).name = name := by
  obtain ⟨log, hlog⟩ := h.chains
  exact hlog.overloads_eq_filter t name

end Universe

end CallResolution
