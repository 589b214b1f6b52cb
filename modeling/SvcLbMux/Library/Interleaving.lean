import Mathlib.Data.List.Basic
import Mathlib.Logic.Function.Basic
import Mathlib.Logic.Relation

namespace Interleaving

variable {κ ω σ ρ : Type*}

/-- What the parties do. `alone` is what a request does to the view of the party that makes it. -/
structure Parties (κ ω σ ρ : Type*) where
  view : ω → κ → Option σ
  apply : κ → ω → ρ → ω
  alone : σ → ρ → σ
  emits : σ → List ρ → Prop

/-- The world, and what each party has still to ask for in its round. -/
structure State (κ ω ρ : Type*) where
  world : ω
  pending : κ → List ρ

namespace Parties

variable (parties : Parties κ ω σ ρ) (admits : ω → Prop) (edits : κ → Option σ → Option σ → Prop)

/-- A step of a party, or an edit of the world by somebody else, which is not seen by a party in the
middle of its round. -/
inductive Step [DecidableEq κ] : State κ ω ρ → State κ ω ρ → Prop
  | starts {s : State κ ω ρ} {key : κ} {x : σ} {requests : List ρ}
      (seen : parties.view s.world key = some x) (idle : s.pending key = [])
      (emitted : parties.emits x requests) :
      Step s ⟨s.world, Function.update s.pending key requests⟩
  | takesEffect {s : State κ ω ρ} {key : κ} {request : ρ} {rest : List ρ}
      (next : s.pending key = request :: rest) :
      Step s ⟨parties.apply key s.world request, Function.update s.pending key rest⟩
  | fails {s : State κ ω ρ} {key : κ} {request : ρ} {rest : List ρ}
      (next : s.pending key = request :: rest) :
      Step s ⟨s.world, Function.update s.pending key rest⟩
  | edit {s : State κ ω ρ} {world : ω} (admitted : admits world)
      (edited : ∀ key, parties.view world key = parties.view s.world key ∨
        s.pending key = [] ∧ edits key (parties.view s.world key) (parties.view world key)) :
      Step s ⟨world, s.pending⟩

/-- A round of a party that nobody disturbs, of whose requests some take effect, or an edit. -/
inductive Alone (key : κ) : Option σ → Option σ → Prop
  | round {x : σ} {requests done : List ρ} (emitted : parties.emits x requests)
      (part : done.Sublist requests) : Alone key (some x) (some (done.foldl parties.alone x))
  | edit {seen seen' : Option σ} (edited : edits key seen seen') : Alone key seen seen'

/-- The party is in a round that it started with `x`, and `request` is part of the round. -/
structure InRound (world : ω) (key : κ) (x : σ) (done : List ρ) (request : ρ) : Prop where
  emitted : ∃ requests, parties.emits x requests ∧ request ∈ requests ∧ done.Sublist requests
  view : parties.view world key = some (done.foldl parties.alone x)

/-- A request does to the view of its party what it does to it alone, and nothing to the others. -/
structure Local : Prop where
  own : ∀ {world key x done request}, admits world → parties.InRound world key x done request →
    parties.view (parties.apply key world request) key =
      some (parties.alone (done.foldl parties.alone x) request)
  others : ∀ {world key x done request}, admits world → parties.InRound world key x done request →
    ∀ key', key' ≠ key → parties.view (parties.apply key world request) key' =
      parties.view world key'
  admits : ∀ {world key x done request}, admits world → parties.InRound world key x done request →
    admits (parties.apply key world request)

variable {parties admits edits}

/-- Where a party is: between two rounds, or in one that it started with `x`. -/
def At (parties : Parties κ ω σ ρ) (s : State κ ω ρ) (key : κ) (seen : Option σ) : Prop :=
  (parties.view s.world key = seen ∧ s.pending key = []) ∨
    ∃ (x : σ) (taken done : List ρ), seen = some x ∧
      parties.emits x (taken ++ s.pending key) ∧ done.Sublist taken ∧
      parties.view s.world key = some (done.foldl parties.alone x)

theorem At.inRound {s : State κ ω ρ} {key : κ} {seen : Option σ} (h : parties.At s key seen)
    {request : ρ} (hrequest : request ∈ s.pending key) :
    ∃ x done, parties.InRound s.world key x done request := by
  obtain ⟨-, hidle⟩ | ⟨x, taken, done, -, hemits, hpart, hview⟩ := h
  · rw [hidle] at hrequest
    exact nomatch hrequest
  · exact ⟨x, done, ⟨_, hemits, List.mem_append_right _ hrequest,
      hpart.trans (List.sublist_append_left _ _)⟩, hview⟩

/-- What a party sees in the middle of a round it would see alone after the round. -/
theorem At.alone {s : State κ ω ρ} {key : κ} {seen : Option σ} (h : parties.At s key seen) :
    Relation.ReflTransGen (parties.Alone edits key) seen (parties.view s.world key) := by
  obtain ⟨rfl, -⟩ | ⟨x, taken, done, rfl, hemits, hpart, hview⟩ := h
  · exact .refl
  · rw [hview]
    exact .single (.round hemits (hpart.trans (List.sublist_append_left _ _)))

theorem At.congr {s s' : State κ ω ρ} {key : κ} {seen : Option σ} (h : parties.At s key seen)
    (hview : parties.view s'.world key = parties.view s.world key)
    (hpending : s'.pending key = s.pending key) : parties.At s' key seen := by
  unfold At
  rwa [hview, hpending]

variable [DecidableEq κ]

/-- Invariant of a run: the world is as admitted, and every party is where it could be alone. -/
def Invariant (parties : Parties κ ω σ ρ) (admits : ω → Prop)
    (edits : κ → Option σ → Option σ → Prop) (start s : State κ ω ρ) : Prop :=
  admits s.world ∧ ∀ key, ∃ seen,
    Relation.ReflTransGen (parties.Alone edits key) (parties.view start.world key) seen ∧
      parties.At s key seen

theorem invariant_step (hlocal : parties.Local admits) {start s s' : State κ ω ρ}
    (h : parties.Invariant admits edits start s) (hstep : parties.Step admits edits s s') :
    parties.Invariant admits edits start s' := by
  obtain ⟨hadmits, hat⟩ := h
  cases hstep with
  | @starts key x requests hseen hidle hemitted =>
    refine ⟨hadmits, fun key' => ?_⟩
    obtain ⟨seen, hrun, h⟩ := hat key'
    by_cases hkey : key' = key
    · subst hkey
      refine ⟨_, hrun.trans h.alone, Or.inr ⟨x, [], [], hseen, ?_, List.nil_sublist _, hseen⟩⟩
      simpa using hemitted
    · exact ⟨seen, hrun, h.congr rfl (Function.update_of_ne hkey _ _)⟩
  | @takesEffect key request rest hnext =>
    obtain ⟨seen, hrun, h⟩ := hat key
    obtain ⟨x', done', hround'⟩ := h.inRound (hnext ▸ List.mem_cons_self)
    refine ⟨hlocal.admits hadmits hround', fun key' => ?_⟩
    by_cases hkey : key' = key
    · subst hkey
      refine ⟨seen, hrun, ?_⟩
      obtain ⟨-, hidle⟩ | ⟨x, taken, done, hseen, hemits, hpart, hview⟩ := h
      · exact nomatch hidle.symm.trans hnext
      · have hround : parties.InRound s.world key' x done request :=
          ⟨⟨_, hemits, by simp [hnext], hpart.trans (List.sublist_append_left _ _)⟩, hview⟩
        refine Or.inr ⟨x, taken ++ [request], done ++ [request], hseen, ?_,
          hpart.append (List.Sublist.refl _), ?_⟩
        · simpa [hnext] using hemits
        · rw [List.foldl_concat]
          exact hlocal.own hadmits hround
    · obtain ⟨seen', hrun', h'⟩ := hat key'
      exact ⟨seen', hrun', h'.congr (hlocal.others hadmits hround' key' hkey)
        (Function.update_of_ne hkey _ _)⟩
  | @fails key request rest hnext =>
    refine ⟨hadmits, fun key' => ?_⟩
    obtain ⟨seen, hrun, h⟩ := hat key'
    by_cases hkey : key' = key
    · subst hkey
      refine ⟨seen, hrun, ?_⟩
      obtain ⟨-, hidle⟩ | ⟨x, taken, done, hseen, hemits, hpart, hview⟩ := h
      · exact nomatch hidle.symm.trans hnext
      · refine Or.inr ⟨x, taken ++ [request], done, hseen, ?_,
          hpart.trans (List.sublist_append_left _ _), hview⟩
        simpa [hnext] using hemits
    · exact ⟨seen, hrun, h.congr rfl (Function.update_of_ne hkey _ _)⟩
  | @edit world hadmitted hedited =>
    refine ⟨hadmitted, fun key => ?_⟩
    obtain ⟨seen, hrun, h⟩ := hat key
    obtain hsame | ⟨hidle, hedit⟩ := hedited key
    · exact ⟨seen, hrun, h.congr hsame rfl⟩
    · exact ⟨_, (hrun.trans h.alone).tail (.edit hedit), Or.inl ⟨rfl, hidle⟩⟩

theorem invariant_run (hlocal : parties.Local admits) {start s : State κ ω ρ}
    (hadmits : admits start.world) (hidle : ∀ key, start.pending key = [])
    (hrun : Relation.ReflTransGen (parties.Step admits edits) start s) :
    parties.Invariant admits edits start s := by
  induction hrun with
  | refl => exact ⟨hadmits, fun key => ⟨_, .refl, Or.inl ⟨rfl, hidle key⟩⟩⟩
  | tail _ hstep ih => exact invariant_step hlocal ih hstep

theorem alone_of_run (hlocal : parties.Local admits) {start s : State κ ω ρ}
    (hadmits : admits start.world) (hidle : ∀ key, start.pending key = [])
    (hrun : Relation.ReflTransGen (parties.Step admits edits) start s) (key : κ) :
    Relation.ReflTransGen (parties.Alone edits key) (parties.view start.world key)
      (parties.view s.world key) := by
  obtain ⟨seen, hseen, hat⟩ := (invariant_run hlocal hadmits hidle hrun).2 key
  exact hseen.trans hat.alone

end Parties

end Interleaving
