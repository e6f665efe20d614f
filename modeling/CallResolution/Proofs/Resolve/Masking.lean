import CallResolution.Proofs.Resolve.Imports
import CallResolution.Proofs.Resolve.MethodCall

/-!
# An inner name masks outer ones

A call by name alone is decided by the innermost frame whose class lists methods of the name.
It is bound to nothing but what this frame lists; when the frame offers nothing the call is
refused, and it is reported as hidden when and only when a frame further out would have
offered a method. Static imports are searched when no frame sees the name.

What a frame lists and offers is judged in the session that the call leaves behind. The
search, the refusal and the report each go through the frames in sessions of their own; they
agree because nothing that one of them has found out changes later.

Main statements: `masked_of_some` and `masked_of_none`, for a frame that offers a method and
for one that does not.
-/

namespace CallResolution

open Universe

/-- The classes of the frames inside a place list no methods of a name. They have tables, or
the search would have stopped at them. -/
def Universe.Blank (u : Universe) (name : String) (frames : List Frame) (i : Nat) : Prop :=
  ∀ j < i, ∀ g, frames[j]? = some g → u.listed g.type name = some []

/-- The innermost frame whose class lists methods of a name. It is the same as
`Universe.Sees`, told by places and not by a list of numbered frames. -/
structure Universe.Masks (u : Universe) (name : String) (frames : List Frame) (i : Nat) (f : Frame)
    (shadows : List Shadow) : Prop where
  /-- The frame. -/
  frame : frames[i]? = some f
  /-- The frames inside it list no such method. -/
  blank : u.Blank name frames i
  /-- The methods that it lists. -/
  listed : u.listed f.type name = some shadows
  /-- There is one. -/
  ne_nil : shadows ≠ []

/-! ## Places of frames

The search numbers the frames and drops those that it passes; a statement about a call speaks
of their places.
-/

section Places

variable {u : Universe} {name : String} {frames : List Frame} {inner outer : List (Frame × Nat)} {p : Frame × Nat}

/-- Numbered frames have their places as numbers. -/
theorem getElem?_of_zipIdx_eq (h : frames.zipIdx = inner ++ p :: outer) :
    p.2 = inner.length ∧ frames[inner.length]? = some p.1 := by
  have hp : frames.zipIdx[inner.length]? = some p := by simp [h]
  rw [List.getElem?_zipIdx] at hp
  obtain ⟨f, hf, rfl⟩ := Option.map_eq_some_iff.mp hp
  exact ⟨by simp, hf⟩

/-- Frames that list nothing before some frame. -/
theorem blank_of_zipIdx_eq (h : frames.zipIdx = inner ++ p :: outer)
    (hinner : ∀ q ∈ inner, u.listed q.1.type name = some []) : u.Blank name frames inner.length := by
  intro j hj g hg
  have hmem : (g, j) ∈ inner := by
    have hz : frames.zipIdx[j]? = some (g, j) := by simp [List.getElem?_zipIdx, hg]
    rw [h, List.getElem?_append_left hj] at hz
    exact List.mem_of_getElem? hz
  exact hinner _ hmem

/-- The frame that sees a name, by its place. -/
theorem Universe.Sees.masks {i : Nat} {f : Frame} {shadows : List Shadow}
    (h : u.Sees name frames.zipIdx i f shadows) : u.Masks name frames i f shadows := by
  obtain ⟨⟨inner, outer, heq, hinner⟩, hlisted, hne⟩ := h
  obtain ⟨rfl, hframe⟩ := getElem?_of_zipIdx_eq heq
  exact ⟨hframe, blank_of_zipIdx_eq heq hinner, hlisted, hne⟩

/-- The frames further out than a place. -/
theorem exists_mem_drop_zipIdx {i : Nat} {P : Frame → Prop} :
    (∃ p ∈ frames.zipIdx.drop (i + 1), P p.1) ↔ ∃ j g, i < j ∧ frames[j]? = some g ∧ P g := by
  constructor
  · rintro ⟨⟨g, j⟩, hmem, hp⟩
    obtain ⟨k, hk⟩ := List.mem_iff_getElem?.mp hmem
    rw [List.getElem?_drop, List.getElem?_zipIdx] at hk
    obtain ⟨g', hg', heq⟩ := Option.map_eq_some_iff.mp hk
    cases heq
    exact ⟨_, g, by omega, hg', hp⟩
  · rintro ⟨j, g, hj, hg, hp⟩
    refine ⟨(g, j), List.mem_iff_getElem?.mpr ⟨j - (i + 1), ?_⟩, hp⟩
    rw [List.getElem?_drop, List.getElem?_zipIdx, show i + 1 + (j - (i + 1)) = j by omega, hg]
    simp

end Places

namespace Session

variable {st st₁ : Session} {env : Env} {site : Site} {name : String} {args : List TypeId}

/-- A call by name alone goes on with what the search through the frames has found. -/
theorem resolveUnqualified_run {r : Except TableFault (Option (Nat × Frame × List Shadow × Option Selection))}
    (h : selectLexically env site name args env.frames.zipIdx st = (r, st₁)) :
    (resolveUnqualified env site name args).run st = (bindSearched env site name args r).run st₁ := by
  show (bindSearched env site name args (selectLexically env site name args env.frames.zipIdx st).1).run
    (selectLexically env site name args env.frames.zipIdx st).2 = _
  rw [h]

/-- What the search through the frames has found, and where it ends. -/
theorem selectLexically_found (hst : st.WellFormed) (henv : KnowsEnv st.world.types env) (hsite : KnowsArgs st.world.types site)
    {r : Except TableFault (Option (Nat × Frame × List Shadow × Option Selection))}
    (h : selectLexically env site name args env.frames.zipIdx st = (r, st₁)) :
    st₁.WellFormed ∧ Quiet st st₁ ∧
      st₁.world.FindsChoice st.options.source.phases env site.typeArgs args name env.frames.zipIdx r := by
  have hworks : Works quietly (selectLexically env site name args env.frames.zipIdx) st _ :=
    selectLexically_works henv hsite.typeArgs name (knowsFrames_zipIdx henv)
  obtain ⟨⟨hwell, hquiet⟩, hfound⟩ := hworks hst
  rw [h] at hwell hquiet hfound
  exact ⟨hwell hst, hquiet.toQuiet, hfound⟩

/-- The program of a session, with its static imports, plays no part in a call by name alone.
With any other program in its place the call comes to the same, and leaves that other program
as it was. -/
def IgnoresProgram (st : Session) (env : Env) (site : Site) (name : String) (args : List TypeId)
    (out : Except Failure Resolution × Session) : Prop :=
  ∀ p, (resolveUnqualified env site name args).run (st.withProgram p) = (out.1, out.2.withProgram p)

/-- What the search through the frames has found decides, whatever the program imports, unless
it has found nothing. -/
theorem resolveUnqualified_ignores {r : Except TableFault (Option (Nat × Frame × List Shadow × Option Selection))}
    (h : selectLexically env site name args env.frames.zipIdx st = (r, st₁)) (hr : r ≠ .ok none) :
    IgnoresProgram st env site name args ((resolveUnqualified env site name args).run st) := by
  intro p
  have hp : selectLexically env site name args env.frames.zipIdx (st.withProgram p) = (r, st₁.withProgram p) := by
    rw [selectLexically_blind, h]
  rw [resolveUnqualified_run h, resolveUnqualified_run hp]
  match r with
  | .error e => rfl
  | .ok none => exact absurd rfl hr
  | .ok (some (i, f, shadows, none)) => exact Blind.lift (methodNotFound_blind _) (fun _ => .throw) p st₁
  | .ok (some (i, f, shadows, some sel)) => exact bindLexical_blind env site name args i f shadows sel p st₁

/-- What becomes of a call by name alone when some frame sees the name. It covers the calls
that are bound and those that are refused, and both are told of the session that the call
leaves behind. -/
structure Masked (st : Session) (env : Env) (site : Site) (name : String) (args : List TypeId) (i : Nat) (f : Frame)
    (shadows : List Shadow) (out : Except Failure Resolution × Session) : Prop where
  /-- The frame is the innermost one that sees the name. -/
  masks : out.2.world.Masks name env.frames i f shadows
  /-- The call is bound to nothing but what the frame lists. -/
  bound : ∀ r, out.1 = .ok r → ∃ s ∈ shadows, r.callable = s.method ∨ r.callable ∈ s.conflicts
  /-- When the frame offers nothing the call is refused, as hidden when and only when a frame
  further out offers a method. -/
  refused : ¬ out.2.world.Offers st.options.source.phases env site.typeArgs args name f.type →
    ∃ e, out.1 = .error e ∧ (e.code = some .hiddenByEnclosing ↔ ∃ j g, i < j ∧ env.frames[j]? = some g ∧
      out.2.world.Offers st.options.source.phases env site.typeArgs args name g.type)
  /-- The program and its imports play no part. -/
  ignores : IgnoresProgram st env site name args out

/-- A frame sees the name and offers a method. The call may still be refused, because of the
method that was selected. -/
theorem masked_of_some (hst : st.WellFormed) (henv : KnowsEnv st.world.types env) (hsite : KnowsArgs st.world.types site)
    (hargs : ∀ t ∈ args, st.world.types.Knows t) {i : Nat} {f : Frame} {shadows : List Shadow} {sel : Selection}
    (h : selectLexically env site name args env.frames.zipIdx st = (.ok (some (i, f, shadows, some sel)), st₁)) :
    Masked st env site name args i f shadows ((resolveUnqualified env site name args).run st) := by
  have hf := knowsFrames_zipIdx henv
  obtain ⟨hst₁, hquiet, hsees, hsound, hprocessed, hdecides⟩ := selectLexically_found hst henv hsite h
  have hg := hquiet.world.types.toGrows
  have hargs₁ : ∀ t ∈ args, st₁.world.types.Knows t := fun t ht => hg.knows (hargs t ht)
  have hknown := hg.knows (hf _ hsees.mem)
  have htries : Tries (resolving site.id) (bindLexical env site name args i f shadows sel) st₁ _ _ :=
    bindLexical_tries (henv.grows hg) (hsite.grows hg) name hargs₁ i (hsees.frame (henv.grows hg)) hsees.isSome
      hsees.listed (hsees.listedShadow hsound) hprocessed hdecides (readsThis_receiverType st)
  have hbound := htries hst₁
  have hrun := resolveUnqualified_run h
  change _ = (bindLexical env site name args i f shadows sel).run st₁ at hrun
  have hkeeps := hbound.1.2.world
  rw [← hrun] at hkeeps
  have hoffers := (hkeeps.weighs hst₁.world (henv.grows hg) (fun t ht => hg.knows (hsite.typeArgs t ht)) hargs₁ hknown
    (hdecides.weighs hsees.listed hprocessed)).offers_iff.mpr rfl
  refine ⟨(hkeeps.sees (hf.grows hg) hsees).masks, fun r hr => ?_, fun hno => absurd hoffers hno,
    resolveUnqualified_ignores h (by simp)⟩
  have hok := hbound.2
  rw [← hrun, hr] at hok
  exact hok.2.2.1

/-- A frame sees the name and offers nothing. The call is refused, and which report it gets is
decided by the frames further out. -/
theorem masked_of_none (hst : st.WellFormed) (henv : KnowsEnv st.world.types env) (hsite : KnowsArgs st.world.types site)
    (hargs : ∀ t ∈ args, st.world.types.Knows t) {i : Nat} {f : Frame} {shadows : List Shadow}
    (h : selectLexically env site name args env.frames.zipIdx st = (.ok (some (i, f, shadows, none)), st₁)) :
    Masked st env site name args i f shadows ((resolveUnqualified env site name args).run st) := by
  have hf := knowsFrames_zipIdx henv
  obtain ⟨hst₁, hquiet, hsees, -⟩ := selectLexically_found hst henv hsite h
  have hg := hquiet.world.types.toGrows
  have hx : Unmatched.Known st₁.world.types { env, site, name, args } :=
    ⟨henv.grows hg, fun t ht => hg.knows (hsite.typeArgs t ht), fun t ht => hg.knows (hargs t ht), fun x hx => by simp at hx,
      hst₁.world.types.knows_none⟩
  have hworks : Works (resolving site.id) (methodNotFound { env, site, name, args }) st₁ _ :=
    methodNotFound_hidden_iff hx rfl hsees
  obtain ⟨⟨-, hcont⟩, hhidden⟩ := hworks hst₁
  have hrun : (resolveUnqualified env site name args).run st =
      (.error { kind := .notFound, code := some (methodNotFound { env, site, name, args } st₁).1, site := site.id },
        (methodNotFound { env, site, name, args } st₁).2) := resolveUnqualified_run h
  have hignores := resolveUnqualified_ignores h (by simp)
  rw [hrun] at hignores ⊢
  refine ⟨(hcont.world.sees (hf.grows hg) hsees).masks, by simp, fun _ => ⟨_, rfl, ?_⟩, hignores⟩
  rw [Option.some.injEq, hhidden, hquiet.options]
  exact exists_mem_drop_zipIdx
    (P := fun g => Universe.Offers _ st.options.source.phases env site.typeArgs args name g.type)

end Session

end CallResolution
