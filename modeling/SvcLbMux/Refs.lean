import SvcLbMux.Controller
import SvcLbMux.Library.Regex

namespace SvcLbMux

open Py RegularExpression

/-- `[a-z0-9]`. -/
def labelAlnum : List Char := Regex.charRange 'a' 'z' ++ Regex.charRange '0' '9'

/-- `[a-z0-9]([-a-z0-9]*[a-z0-9])?`, which `DNS_LABEL_RE` has between its anchors. -/
def dnsLabelRe : RegularExpression Char :=
  Regex.anyOf labelAlnum *
    Regex.optional (star (Regex.anyOf ('-' :: labelAlnum)) * Regex.anyOf labelAlnum)

def validateDnsLabel (value field : String) : Except ValueError Unit :=
  if value = "" || 63 < value.toList.length || !Regex.matchLine dnsLabelRe value then
    .error ⟨"Invalid " ++ field ++ " " ++ reprText value ++ "; expected a Kubernetes DNS label"⟩
  else .ok ()

variable (cfg : Config)

/-- The checks that `get_mux_from_lb_class` ends with. -/
def validateMuxRef (muxName muxNs : String) : Except ValueError (String × String) :=
  match validateDnsLabel muxName "multiplexer service name" with
  | .error e => .error e
  | .ok () =>
    match validateDnsLabel muxNs "multiplexer namespace" with
    | .error e => .error e
    | .ok () => .ok (muxNs, muxName)

/-- `get_mux_from_lb_class`: the namespace and the name of the mux. -/
def getMuxFromLbClass (cls : String) : Except ValueError (String × String) :=
  let lbPrefix := cfg.apiPrefix ++ "/"
  let expected := cfg.apiPrefix ++ "/<name>[.<namespace>]"
  if !lbPrefix.toList.isPrefixOf cls.toList then
    .error ⟨"Invalid LoadBalancerClass, expected format: " ++ expected⟩
  else
    match split (String.ofList (cls.toList.drop lbPrefix.toList.length)) '.' with
    | [muxName] => validateMuxRef muxName cfg.defaultMuxNamespace
    | [muxName, muxNs] => validateMuxRef muxName muxNs
    | _ => .error ⟨"Invalid LoadBalancerClass " ++ reprText cls ++ "; expected " ++ expected⟩

/-! ## What is accepted as a label -/

/-- A DNS label with a newline behind it, at most 63 characters together. -/
def NewlineLabel (s : String) : Prop :=
  ∃ label, s = label ++ "\n" ∧ isDnsLabel label = true ∧ label.toList.length ≤ 62

theorem mem_labelAlnum_iff (c : Char) :
    c ∈ labelAlnum ↔ ('a' ≤ c ∧ c ≤ 'z') ∨ ('0' ≤ c ∧ c ≤ '9') := by
  rw [labelAlnum, List.mem_append, Regex.mem_charRange_iff (by decide),
    Regex.mem_charRange_iff (by decide)]

theorem dnsLabelRe_rmatch_cons_iff (x : List Char) :
    dnsLabelRe.rmatch x ↔ ∃ c ∈ labelAlnum, x = [c] ∨
      ∃ mid d, x = c :: (mid ++ [d]) ∧ (∀ e ∈ mid, e ∈ '-' :: labelAlnum) ∧ d ∈ labelAlnum := by
  rw [dnsLabelRe, mul_rmatch_iff]
  simp only [Regex.anyOf_rmatch_iff, Regex.optional_rmatch_iff, mul_rmatch_iff,
    Regex.star_anyOf_rmatch_iff]
  constructor
  · rintro ⟨t, u, rfl, ⟨c, hc, rfl⟩, rfl | ⟨mid, v, rfl, hmid, d, hd, rfl⟩⟩
    · exact ⟨c, hc, Or.inl rfl⟩
    · exact ⟨c, hc, Or.inr ⟨mid, d, rfl, hmid, hd⟩⟩
  · rintro ⟨c, hc, rfl | ⟨mid, d, rfl, hmid, hd⟩⟩
    · exact ⟨[c], [], rfl, ⟨c, hc, rfl⟩, Or.inl rfl⟩
    · exact ⟨[c], mid ++ [d], rfl, ⟨c, hc, rfl⟩, Or.inr ⟨mid, [d], rfl, hmid, d, hd, rfl⟩⟩

/-- The expression matches what looks like a DNS label, of whatever length. -/
theorem rmatch_dnsLabelRe_iff (x : List Char) :
    dnsLabelRe.rmatch x ↔ (∀ c ∈ x, c ∈ labelAlnum ∨ c = '-') ∧
      (∃ c, x.head? = some c ∧ c ∈ labelAlnum) ∧ ∃ c, x.getLast? = some c ∧ c ∈ labelAlnum := by
  rw [dnsLabelRe_rmatch_cons_iff]
  constructor
  · rintro ⟨c, hc, rfl | ⟨mid, d, rfl, hmid, hd⟩⟩
    · exact ⟨by simp [hc], ⟨c, rfl, hc⟩, c, rfl, hc⟩
    · refine ⟨fun e he => ?_, ⟨c, rfl, hc⟩, d, ?_, hd⟩
      · rcases List.mem_cons.mp he with rfl | he
        · exact Or.inl hc
        rcases List.mem_append.mp he with he | he
        · exact (List.mem_cons.mp (hmid e he)).symm
        · rw [List.mem_singleton.mp he]
          exact Or.inl hd
      · rw [← List.cons_append, List.getLast?_concat]
  · rintro ⟨hall, ⟨c, hhead, hc⟩, d, hlast, hd⟩
    obtain ⟨rest, rfl⟩ := List.head?_eq_some_iff.mp hhead
    refine ⟨c, hc, ?_⟩
    -- One character, or a last one behind others.
    rcases List.eq_nil_or_concat rest with rfl | ⟨mid, d', rfl⟩
    · exact Or.inl rfl
    · rw [List.concat_eq_append] at hall hlast ⊢
      rw [← List.cons_append, List.getLast?_concat] at hlast
      obtain rfl := Option.some.inj hlast
      refine Or.inr ⟨mid, d', rfl, fun e he => ?_, hd⟩
      exact List.mem_cons.mpr (hall e (by simp [he])).symm

theorem isDnsLabel_iff (s : String) :
    isDnsLabel s = true ↔ s.toList.length ≤ 63 ∧ dnsLabelRe.rmatch s.toList := by
  rw [rmatch_dnsLabelRe_iff]
  simp only [isDnsLabel, Bool.and_eq_true, List.all_eq_true, Bool.or_eq_true, decide_eq_true_eq,
    Option.any_eq_true, mem_labelAlnum_iff, and_assoc]

theorem newlineLabel_iff (s : String) :
    NewlineLabel s ↔ s.toList.length ≤ 63 ∧ ∃ t, s = t ++ "\n" ∧ dnsLabelRe.rmatch t.toList := by
  constructor
  · rintro ⟨label, rfl, hlabel, hlength⟩
    refine ⟨?_, label, rfl, ((isDnsLabel_iff label).mp hlabel).2⟩
    rw [String.toList_append, List.length_append]
    exact Nat.succ_le_succ hlength
  · rintro ⟨hlength, t, rfl, hmatch⟩
    rw [String.toList_append, List.length_append] at hlength
    have hlength' : t.toList.length ≤ 62 := Nat.le_of_succ_le_succ hlength
    exact ⟨t, rfl, (isDnsLabel_iff t).mpr ⟨by omega, hmatch⟩, hlength'⟩

/-- The check of a label: `$` lets a final newline pass. -/
theorem validateDnsLabel_ok_iff (value field : String) :
    validateDnsLabel value field = .ok () ↔ isDnsLabel value = true ∨ NewlineLabel value := by
  have hne : isDnsLabel value = true ∨ NewlineLabel value → value ≠ "" := by
    rintro (h | ⟨label, rfl, -⟩) heq
    · exact ne_empty_of_isDnsLabel h heq
    · have hl := congrArg String.toList heq
      simp at hl
  rw [validateDnsLabel, isDnsLabel_iff, newlineLabel_iff, ← and_or_left, ← Regex.matchLine_iff]
  rw [isDnsLabel_iff, newlineLabel_iff, ← and_or_left, ← Regex.matchLine_iff] at hne
  constructor
  · intro h
    split_ifs at h with hcond
    simp only [Bool.or_eq_true, decide_eq_true_eq, Bool.not_eq_true', not_or, Nat.not_lt,
      Bool.not_eq_false] at hcond
    exact ⟨hcond.1.2, hcond.2⟩
  · intro h
    rw [if_neg]
    simp only [Bool.or_eq_true, decide_eq_true_eq, Bool.not_eq_true', not_or, Nat.not_lt,
      Bool.not_eq_false]
    exact ⟨⟨hne h, h.1⟩, h.2⟩

/-! ## What is accepted as a reference -/

def AcceptedLabel (s : String) : Prop := isDnsLabel s = true ∨ NewlineLabel s

/-- The class is `<prefix>/<name>`, with the default namespace, or `<prefix>/<name>.<namespace>`,
the parts being labels. -/
def MuxReference (label : String → Prop) (cls muxNs muxName : String) : Prop :=
  label muxName ∧
    ((muxNs = cfg.defaultMuxNamespace ∧ cls = cfg.apiPrefix ++ "/" ++ muxName) ∨
      (label muxNs ∧ cls = cfg.apiPrefix ++ "/" ++ muxName ++ "." ++ muxNs))

/-- The class is a reference with a part that ends in a newline. -/
def NewlineReference (cls : String) : Prop :=
  ∃ muxNs muxName, MuxReference cfg AcceptedLabel cls muxNs muxName ∧
    (NewlineLabel muxName ∨ NewlineLabel muxNs)

/-- The class is parsed as its grammar says, and every other text is a `ValueError`. -/
def ParsedByGrammar (cls : String) : Prop :=
  (∀ muxNs muxName, getMuxFromLbClass cfg cls = .ok (muxNs, muxName) ↔
    MuxReference cfg (isDnsLabel · = true) cls muxNs muxName) ∧
  ((∀ muxNs muxName, ¬ MuxReference cfg (isDnsLabel · = true) cls muxNs muxName) →
    ∃ e, getMuxFromLbClass cfg cls = .error e)

variable {cfg}

theorem notMem_dot_of_acceptedLabel {s : String} (h : AcceptedLabel s) : '.' ∉ s.toList := by
  rcases h with h | ⟨label, rfl, h, -⟩
  · exact notMem_of_isDnsLabel h (by decide)
  · rw [String.toList_append, List.mem_append, not_or]
    exact ⟨notMem_of_isDnsLabel h (by decide), by decide⟩

theorem not_newlineLabel_of_isDnsLabel {s : String} (h : isDnsLabel s = true) :
    ¬ NewlineLabel s := by
  rintro ⟨label, rfl, -⟩
  refine notMem_of_isDnsLabel h (c := '\n') (by decide) ?_
  rw [String.toList_append]
  exact List.mem_append_right _ (by decide)

theorem validateMuxRef_ok_iff (name ns muxNs muxName : String) :
    validateMuxRef name ns = .ok (muxNs, muxName) ↔
      muxName = name ∧ muxNs = ns ∧ AcceptedLabel muxName ∧ AcceptedLabel muxNs := by
  have hname := validateDnsLabel_ok_iff name "multiplexer service name"
  have hns := validateDnsLabel_ok_iff ns "multiplexer namespace"
  unfold validateMuxRef
  constructor
  · intro h
    split at h
    · cases h
    · rename_i hnameok
      split at h
      · cases h
      · rename_i hnsok
        obtain ⟨rfl, rfl⟩ := Prod.mk.inj (Except.ok.inj h)
        exact ⟨rfl, rfl, hname.mp hnameok, hns.mp hnsok⟩
  · rintro ⟨rfl, rfl, hacceptedName, hacceptedNs⟩
    rw [hname.mpr hacceptedName, hns.mpr hacceptedNs]

theorem getMuxFromLbClass_ok_iff_split (cls muxNs muxName : String) :
    getMuxFromLbClass cfg cls = .ok (muxNs, muxName) ↔
      ∃ ref, cls = cfg.apiPrefix ++ "/" ++ ref ∧ AcceptedLabel muxName ∧ AcceptedLabel muxNs ∧
        ((split ref '.' = [muxName] ∧ muxNs = cfg.defaultMuxNamespace) ∨
          split ref '.' = [muxName, muxNs]) := by
  unfold getMuxFromLbClass
  dsimp only
  obtain ⟨ref, rfl, hstarts, hdrop⟩ | ⟨hstarts, hnone⟩ := prefix_cases (cfg.apiPrefix ++ "/") cls
  · rw [hstarts, hdrop]
    constructor
    · intro h
      refine ⟨ref, rfl, ?_⟩
      rw [Bool.not_true, if_neg Bool.false_ne_true] at h
      split at h
      · rename_i name hsplit
        obtain ⟨rfl, rfl, hname, hns⟩ := (validateMuxRef_ok_iff _ _ _ _).mp h
        exact ⟨hname, hns, Or.inl ⟨hsplit, rfl⟩⟩
      · rename_i name ns hsplit
        obtain ⟨rfl, rfl, hname, hns⟩ := (validateMuxRef_ok_iff _ _ _ _).mp h
        exact ⟨hname, hns, Or.inr hsplit⟩
      · cases h
    · rintro ⟨ref', heq, hname, hns, hsplit⟩
      rw [← append_left_cancel heq] at hsplit
      rcases hsplit with ⟨hsplit, rfl⟩ | hsplit
      · rw [hsplit]
        exact (validateMuxRef_ok_iff _ _ _ _).mpr ⟨rfl, rfl, hname, hns⟩
      · rw [hsplit]
        exact (validateMuxRef_ok_iff _ _ _ _).mpr ⟨rfl, rfl, hname, hns⟩
  · rw [hstarts]
    refine iff_of_false (fun h => ?_) fun ⟨ref, heq, _⟩ => hnone ref heq
    cases h

theorem getMuxFromLbClass_ok_iff (hdefault : isDnsLabel cfg.defaultMuxNamespace = true)
    (cls muxNs muxName : String) :
    getMuxFromLbClass cfg cls = .ok (muxNs, muxName) ↔
      MuxReference cfg AcceptedLabel cls muxNs muxName := by
  rw [getMuxFromLbClass_ok_iff_split, MuxReference]
  constructor
  · rintro ⟨ref, rfl, hname, hns, ⟨hsplit, rfl⟩ | hsplit⟩
    · rw [(split_eq_singleton_iff.mp hsplit).1]
      exact ⟨hname, Or.inl ⟨rfl, rfl⟩⟩
    · refine ⟨hname, Or.inr ⟨hns, ?_⟩⟩
      rw [← String.toList_inj]
      simp only [String.toList_append, (split_eq_pair_iff.mp hsplit).1, List.append_assoc]
      rfl
  · rintro ⟨hname, ⟨rfl, rfl⟩ | ⟨hns, rfl⟩⟩
    · exact ⟨muxName, rfl, hname, Or.inl hdefault,
        Or.inl ⟨split_eq_singleton_iff.mpr ⟨rfl, notMem_dot_of_acceptedLabel hname⟩, rfl⟩⟩
    · refine ⟨muxName ++ "." ++ muxNs, ?_, hname, hns, Or.inr (split_eq_pair_iff.mpr ⟨?_,
        notMem_dot_of_acceptedLabel hname, notMem_dot_of_acceptedLabel hns⟩)⟩
      · simp only [String.append_assoc]
      · simp [String.toList_append]

theorem MuxReference.imp {label label' : String → Prop} (h : ∀ s, label s → label' s)
    {cls muxNs muxName : String} (href : MuxReference cfg label cls muxNs muxName) :
    MuxReference cfg label' cls muxNs muxName :=
  ⟨h _ href.1, href.2.imp id (And.imp_left (h _))⟩

theorem labels_of_muxReference (hdefault : isDnsLabel cfg.defaultMuxNamespace = true)
    {cls muxNs muxName : String}
    (href : MuxReference cfg (isDnsLabel · = true) cls muxNs muxName) :
    isDnsLabel muxName = true ∧ isDnsLabel muxNs = true := by
  obtain ⟨hname, ⟨rfl, -⟩ | ⟨hns, -⟩⟩ := href
  · exact ⟨hname, hdefault⟩
  · exact ⟨hname, hns⟩

/-- Without a newline at the end of a part the accepted references are those of the grammar. -/
theorem muxReference_accepted_iff {cls : String} (hnewline : ¬ NewlineReference cfg cls)
    (muxNs muxName : String) :
    MuxReference cfg AcceptedLabel cls muxNs muxName ↔
      MuxReference cfg (isDnsLabel · = true) cls muxNs muxName := by
  refine ⟨fun href => ?_, MuxReference.imp fun _ => Or.inl⟩
  have hpart : ∀ s, AcceptedLabel s → ¬ NewlineLabel s → isDnsLabel s = true :=
    fun s h hnot => h.resolve_right hnot
  have hname : ¬ NewlineLabel muxName := fun h => hnewline ⟨muxNs, muxName, href, Or.inl h⟩
  have hns : ¬ NewlineLabel muxNs := fun h => hnewline ⟨muxNs, muxName, href, Or.inr h⟩
  exact ⟨hpart _ href.1 hname, href.2.imp id (And.imp_left fun h => hpart _ h hns)⟩

/-- A class is parsed as its grammar says, except for references with a part that ends in a
newline; and every well-formed reference with a namespace is read back. -/
theorem mux_reference_parsed_iff (cfg : Config)
    (hdefault : isDnsLabel cfg.defaultMuxNamespace = true) (cls : String) :
    (ParsedByGrammar cfg cls ↔ ¬ NewlineReference cfg cls) ∧
      ∀ muxNs muxName, isDnsLabel muxName = true → isDnsLabel muxNs = true →
        getMuxFromLbClass cfg (cfg.apiPrefix ++ "/" ++ muxName ++ "." ++ muxNs) =
          .ok (muxNs, muxName) := by
  refine ⟨⟨?_, fun hnewline => ⟨fun muxNs muxName => ?_, fun hnone => ?_⟩⟩, ?_⟩
  · rintro ⟨hparsed, -⟩ ⟨muxNs, muxName, href, hpart⟩
    obtain ⟨hname, hns⟩ := labels_of_muxReference hdefault
      ((hparsed muxNs muxName).mp ((getMuxFromLbClass_ok_iff hdefault _ _ _).mpr href))
    exact hpart.elim (not_newlineLabel_of_isDnsLabel hname) (not_newlineLabel_of_isDnsLabel hns)
  · rw [getMuxFromLbClass_ok_iff hdefault, muxReference_accepted_iff hnewline]
  · cases hget : getMuxFromLbClass cfg cls with
    | error e => exact ⟨e, rfl⟩
    | ok mux =>
      have href := (getMuxFromLbClass_ok_iff hdefault cls mux.1 mux.2).mp hget
      exact absurd ((muxReference_accepted_iff hnewline _ _).mp href) (hnone mux.1 mux.2)
  · intro muxNs muxName hname hns
    exact (getMuxFromLbClass_ok_iff hdefault _ _ _).mpr ⟨Or.inl hname, Or.inr ⟨Or.inl hns, rfl⟩⟩

/-- A name with a newline behind it is accepted. -/
theorem mux_reference_newline_accepted :
    getMuxFromLbClass sampleConfig "svc-mux.nowake.ai/mux\n" = .ok ("default", "mux\n") ∧
      ¬ ParsedByGrammar sampleConfig "svc-mux.nowake.ai/mux\n" := by
  have hget : getMuxFromLbClass sampleConfig "svc-mux.nowake.ai/mux\n" =
      .ok ("default", "mux\n") := by decide +kernel
  refine ⟨hget, fun hparsed => ?_⟩
  obtain ⟨hname, -⟩ := (hparsed.1 "default" "mux\n").mp hget
  exact absurd hname (by decide +kernel)

theorem mux_reference_parsed_sample :
    (ParsedByGrammar sampleConfig "svc-mux.nowake.ai/payments.edge" ↔
        ¬ NewlineReference sampleConfig "svc-mux.nowake.ai/payments.edge") ∧
      ∀ muxNs muxName, isDnsLabel muxName = true → isDnsLabel muxNs = true →
        getMuxFromLbClass sampleConfig
            (sampleConfig.apiPrefix ++ "/" ++ muxName ++ "." ++ muxNs) = .ok (muxNs, muxName) :=
  mux_reference_parsed_iff sampleConfig (by decide +kernel) "svc-mux.nowake.ai/payments.edge"

end SvcLbMux
