import Mathlib.Algebra.Order.Ring.Unbundled.Rat
import SvcLbMux.Library.Dict
import SvcLbMux.Library.PurePath

namespace SvcLbMux

open Py

namespace KubeClient

/-- A call of `list_resources`, with the context of its client. -/
structure ListQuery where
  context : String
  resourceType : String
  namespace_ : Option String
  selector : Option String
deriving DecidableEq

/-- `if text:`. -/
def given (text : Option String) : Option String := text.filter (· ≠ "")

def cacheKeyParts (query : ListQuery) : List String :=
  ["list_" ++ query.resourceType] ++
    (match given query.namespace_ with
    | some ns => ["ns_" ++ ns]
    | none => ["all_namespaces"]) ++
    match given query.selector with
    | some selector => ["sel_" ++ selector]
    | none => []

def cacheDir : PurePath := PurePath.ofText "/tmp/mux-debug-cache"

/-- The text that `_get_cache_path` joins to the directory. -/
def cacheName (query : ListQuery) : String :=
  query.context ++ "_" ++ "_".intercalate (cacheKeyParts query) ++ ".cache"

def cachePath (query : ListQuery) : PurePath := cacheDir.join (cacheName query)

def kubectlArgs (query : ListQuery) : List String :=
  ["kubectl", "--context", query.context, "get", query.resourceType, "-o", "json"] ++
    (match given query.namespace_ with
    | some ns => ["-n", ns]
    | none => ["--all-namespaces"]) ++
    match given query.selector with
    | some selector => ["-l", selector]
    | none => []

def cacheTtl : ℚ := 60

variable {ι φ α : Type} [DecidableEq ι] [DecidableEq φ]

/-- A file that cannot be unpickled has no data. -/
structure CacheFile (α : Type) where
  mtime : ℚ
  data : Option α

/-- `fileOf` is how the operating system finds the file of a path. -/
def getCachedData (fileOf : PurePath → φ) (files : Dict φ (CacheFile α)) (query : ListQuery)
    (now : ℚ) : Option α :=
  match files.get (fileOf (cachePath query)) with
  | none => none
  | some file => if now - file.mtime > cacheTtl then none else file.data

/-! ## Runs of the tool -/

/-- Where a run of the tool is in `list_resources`. -/
inductive Phase (α : Type) where
  | idle
  | fetching (query : ListQuery) (useCache : Bool)
  | caching (query : ListQuery) (items : α)

inductive WriteOutcome where
  | written
  | truncated
  | failed

structure CacheWrite (α : Type) where
  query : ListQuery
  items : α
  time : ℚ
deriving DecidableEq

/-- The cache files, the runs of the tool, and what has been fetched and written. -/
structure Tools (ι φ α : Type) where
  files : Dict φ (CacheFile α)
  phase : ι → Phase α
  fetched : List (ListQuery × α)
  written : List (CacheWrite α)

def Tools.start : Tools ι φ α := ⟨Dict.empty, fun _ => .idle, [], []⟩

/-- `listResources` looks into the cache, `kubectl` ends with items or fails, `setCachedData` writes
them, or a part of them that cannot be read. Somebody else removes files. -/
inductive Step (ι φ α : Type) where
  | listResources (tool : ι) (query : ListQuery) (useCache : Bool) (now : ℚ)
  | kubectl (tool : ι) (items : Option α)
  | setCachedData (tool : ι) (now : ℚ) (outcome : WriteOutcome)
  | remove (file : φ)

namespace Tools

variable (fileOf : PurePath → φ)

def enter (s : Tools ι φ α) (tool : ι) (phase : Phase α) : Tools ι φ α :=
  { s with phase := Function.update s.phase tool phase }

def step (s : Tools ι φ α) : Step ι φ α → Tools ι φ α
  | .listResources tool query useCache now =>
    if useCache && (getCachedData fileOf s.files query now).isSome then s.enter tool .idle
    else s.enter tool (.fetching query useCache)
  | .kubectl tool answer =>
    match s.phase tool, answer with
    | .fetching query useCache, some items =>
      { s.enter tool (if useCache then .caching query items else .idle) with
        fetched := s.fetched ++ [(query, items)] }
    | .fetching _ _, none => s.enter tool .idle
    | _, _ => s
  | .setCachedData tool now outcome =>
    match s.phase tool, outcome with
    | .caching query items, .written =>
      { s.enter tool .idle with
        files := s.files.set (fileOf (cachePath query)) ⟨now, some items⟩
        written := s.written ++ [⟨query, items, now⟩] }
    | .caching query _, .truncated =>
      { s.enter tool .idle with files := s.files.set (fileOf (cachePath query)) ⟨now, none⟩ }
    | .caching _ _, .failed => s.enter tool .idle
    | _, _ => s
  | .remove file => { s with files := s.files.erase file }

def run (steps : List (Step ι φ α)) : Tools ι φ α := steps.foldl (step fileOf) start

/-! ## Where cached lists come from -/

/-- What a file holds was written at its time, and what is written has been fetched. -/
structure Traced (s : Tools ι φ α) : Prop where
  files : ∀ name file items, s.files.get name = some file → file.data = some items →
    ∃ w ∈ s.written, fileOf (cachePath w.query) = name ∧ w.items = items ∧ w.time = file.mtime
  written : ∀ w ∈ s.written, (w.query, w.items) ∈ s.fetched
  caching : ∀ tool query items, s.phase tool = .caching query items → (query, items) ∈ s.fetched

variable {fileOf} {s : Tools ι φ α}

theorem traced_enter (h : s.Traced fileOf) (tool : ι) {phase : Phase α}
    (hphase : ∀ query items, phase = .caching query items → (query, items) ∈ s.fetched) :
    (s.enter tool phase).Traced fileOf := by
  refine ⟨h.files, h.written, fun other query items hother => ?_⟩
  change Function.update s.phase tool phase other = _ at hother
  by_cases hsame : other = tool
  · rw [hsame, Function.update_self] at hother
    exact hphase query items hother
  · rw [Function.update_of_ne hsame] at hother
    exact h.caching other query items hother

theorem traced_fetch (h : s.Traced fileOf) (tool : ι) (query : ListQuery) (items : α) {phase : Phase α}
    (hphase : ∀ query' items', phase = .caching query' items' →
      (query', items') = (query, items)) :
    Traced fileOf { s.enter tool phase with fetched := s.fetched ++ [(query, items)] } := by
  refine ⟨h.files, fun w hw => List.mem_append_left _ (h.written w hw),
    fun other query' items' hother => ?_⟩
  change Function.update s.phase tool phase other = _ at hother
  by_cases hsame : other = tool
  · rw [hsame, Function.update_self] at hother
    rw [hphase query' items' hother]
    exact List.mem_append_right _ List.mem_cons_self
  · rw [Function.update_of_ne hsame] at hother
    exact List.mem_append_left _ (h.caching other query' items' hother)

theorem traced_write (h : s.Traced fileOf) (tool : ι) {query : ListQuery} {items : α} (now : ℚ)
    (hphase : s.phase tool = .caching query items) :
    Traced fileOf { s.enter tool .idle with
      files := s.files.set (fileOf (cachePath query)) ⟨now, some items⟩
      written := s.written ++ [⟨query, items, now⟩] } ∧
    Traced fileOf { s.enter tool .idle with
      files := s.files.set (fileOf (cachePath query)) ⟨now, none⟩ } := by
  have hidle : (s.enter tool .idle).Traced fileOf :=
    traced_enter h tool fun _ _ hcaching => by cases hcaching
  constructor
  · refine ⟨fun name file found hget hdata => ?_, fun w hw => ?_, hidle.caching⟩
    · change (s.files.set (fileOf (cachePath query)) _).get name = some file at hget
      rw [Dict.get_set] at hget
      split_ifs at hget with hname
      · obtain rfl := Option.some.inj hget
        obtain rfl := Option.some.inj hdata
        exact ⟨⟨query, items, now⟩, List.mem_append_right _ List.mem_cons_self, hname, rfl, rfl⟩
      · obtain ⟨w, hw, hfrom⟩ := h.files name file found hget hdata
        exact ⟨w, List.mem_append_left _ hw, hfrom⟩
    · obtain hw | hw := List.mem_append.mp hw
      · exact h.written w hw
      · obtain rfl := List.mem_singleton.mp hw
        exact h.caching tool query items hphase
  · refine ⟨fun name file found hget hdata => ?_, h.written, hidle.caching⟩
    change (s.files.set (fileOf (cachePath query)) _).get name = some file at hget
    rw [Dict.get_set] at hget
    split_ifs at hget with hpath
    · obtain rfl := Option.some.inj hget
      exact absurd hdata.symm (Option.some_ne_none found)
    · exact h.files name file found hget hdata

theorem traced_step (h : s.Traced fileOf) (a : Step ι φ α) : (s.step fileOf a).Traced fileOf := by
  have henter : ∀ tool, (s.enter tool .idle).Traced fileOf := fun tool =>
    traced_enter h tool fun _ _ hcaching => nomatch hcaching
  cases a with
  | listResources tool query useCache now =>
    unfold step
    dsimp only
    split_ifs
    · exact henter tool
    · exact traced_enter h tool fun _ _ hcaching => nomatch hcaching
  | kubectl tool answer =>
    unfold step
    dsimp only
    split
    · rename_i query useCache items _
      refine traced_fetch h tool query items fun query' items' hcaching => ?_
      split_ifs at hcaching
      obtain ⟨rfl, rfl⟩ := Phase.caching.inj hcaching
      rfl
    · exact henter tool
    · exact h
  | setCachedData tool now outcome =>
    unfold step
    dsimp only
    split
    · rename_i query items hphase
      exact (traced_write h tool now hphase).1
    · rename_i query items hphase
      exact (traced_write h tool now hphase).2
    · exact henter tool
    · exact h
  | remove removed =>
    refine ⟨fun name file items hget hdata => ?_, h.written, h.caching⟩
    change (s.files.erase removed).get name = some file at hget
    rw [Dict.get_erase] at hget
    split_ifs at hget
    exact h.files name file items hget hdata

theorem traced_run (steps : List (Step ι φ α)) : (run fileOf steps).Traced fileOf := by
  induction steps using List.reverseRecOn with
  | nil =>
    exact ⟨fun _ _ _ h => (nomatch h), fun _ h => (nomatch h), fun _ _ _ h => (nomatch h)⟩
  | append_singleton steps a ih =>
    rw [run, List.foldl_concat]
    exact traced_step ih a

end Tools

/-! ## Which queries share a file -/

/-- The query has no selector, its type of resources and its namespace have no underscore, and the
name of its file is written as a path below the directory is. -/
structure ListQuery.Plain (query : ListQuery) : Prop where
  selector : given query.selector = none
  resourceType : '_' ∉ query.resourceType.toList
  namespace_ : ∀ ns ∈ given query.namespace_, '_' ∉ ns.toList
  path : ∀ part ∈ split (cacheName query) '/', IsPart part ∧ part ≠ ".."

/-- Below the directory there are no links, and names differ by their characters. -/
def DistinctFiles (fileOf : PurePath → φ) : Prop :=
  ∀ parts parts', ".." ∉ parts → ".." ∉ parts' →
    fileOf ⟨cacheDir.root, cacheDir.parts ++ parts⟩ =
      fileOf ⟨cacheDir.root, cacheDir.parts ++ parts'⟩ → parts = parts'

/-- The last two words of the name of a file. -/
def scopeWords (query : ListQuery) : List Char × List Char :=
  match given query.namespace_ with
  | some ns => ("ns".toList, ns.toList)
  | none => ("all".toList, "namespaces".toList)

theorem toList_cacheName {query : ListQuery} (h : query.Plain) :
    (cacheName query).toList = ((((query.context.toList ++ '_' :: "list".toList) ++
      '_' :: query.resourceType.toList) ++ '_' :: (scopeWords query).1) ++
        '_' :: (scopeWords query).2) ++ ".cache".toList := by
  have hlist : "list_".toList = "list".toList ++ ['_'] := rfl
  have hns : "ns_".toList = "ns".toList ++ ['_'] := rfl
  have hall : "all_namespaces".toList = "all".toList ++ '_' :: "namespaces".toList := rfl
  have hsep : "_".toList = ['_'] := rfl
  unfold cacheName cacheKeyParts scopeWords
  rw [h.selector]
  cases given query.namespace_ with
  | none => simp [hlist, hall, hsep]
  | some ns => simp [hlist, hns, hsep]

theorem notMem_scopeWords {query : ListQuery} (h : query.Plain) :
    '_' ∉ (scopeWords query).1 ∧ '_' ∉ (scopeWords query).2 := by
  have hns := h.namespace_
  unfold scopeWords
  cases hgiven : given query.namespace_ with
  | none => exact ⟨by decide, by decide⟩
  | some ns =>
    have hkind : '_' ∉ "ns".toList := by decide
    exact ⟨hkind, hns ns (by simp [hgiven])⟩

theorem cacheName_of_fileOf {φ : Type} {fileOf : PurePath → φ} (hfiles : DistinctFiles fileOf)
    {query query' : ListQuery} (h : query.Plain) (h' : query'.Plain)
    (hfile : fileOf (cachePath query) = fileOf (cachePath query')) :
    cacheName query = cacheName query' := by
  rw [cachePath, cachePath, PurePath.join_of_isPart _ fun part hpart => (h.path part hpart).1,
    PurePath.join_of_isPart _ fun part hpart => (h'.path part hpart).1] at hfile
  have hparts := hfiles _ _ (fun hup => (h.path ".." hup).2 rfl)
    (fun hup => (h'.path ".." hup).2 rfl) hfile
  exact split_injective '/' hparts

theorem kubectlArgs_of_cacheName {query query' : ListQuery} (h : query.Plain) (h' : query'.Plain)
    (hcache : cacheName query = cacheName query') : kubectlArgs query = kubectlArgs query' := by
  have htext := congrArg String.toList hcache
  rw [toList_cacheName h, toList_cacheName h'] at htext
  have hname := List.append_cancel_right htext
  obtain ⟨hname, hscope⟩ :=
    append_cons_inj_last (notMem_scopeWords h).2 (notMem_scopeWords h').2 hname
  obtain ⟨hname, hkind⟩ :=
    append_cons_inj_last (notMem_scopeWords h).1 (notMem_scopeWords h').1 hname
  obtain ⟨hname, htype⟩ := append_cons_inj_last h.resourceType h'.resourceType hname
  obtain ⟨hcontext, -⟩ := append_cons_inj_last (by decide) (by decide) hname
  have hkinds : "ns".toList ≠ "all".toList := by decide
  have hnamespace : given query.namespace_ = given query'.namespace_ := by
    unfold scopeWords at hscope hkind
    cases hns : given query.namespace_ with
    | none =>
      cases hns' : given query'.namespace_ with
      | none => rfl
      | some ns' =>
        rw [hns, hns'] at hkind
        exact absurd hkind.symm hkinds
    | some ns =>
      cases hns' : given query'.namespace_ with
      | none =>
        rw [hns, hns'] at hkind
        exact absurd hkind hkinds
      | some ns' =>
        rw [hns, hns'] at hscope
        exact congrArg some (String.toList_inj.mp hscope)
  rw [kubectlArgs, kubectlArgs, hnamespace, h.selector, h'.selector,
    String.toList_inj.mp hcontext, String.toList_inj.mp htype]

/-- However the runs of the tool interleave, and whoever removes files or leaves them half written:
a list from the cache is what `kubectl` has given to a query with the same file, which was written
at most a minute ago. Where both queries are plain, they are the same command. -/
theorem cached_lists_are_recent (fileOf : PurePath → φ) (steps : List (Step ι φ α))
    (query : ListQuery) (now : ℚ) (items : α)
    (h : getCachedData fileOf (Tools.run fileOf steps).files query now = some items) :
    ∃ w ∈ (Tools.run fileOf steps).written, w.items = items ∧ now - w.time ≤ cacheTtl ∧
      (w.query, items) ∈ (Tools.run fileOf steps).fetched ∧
      fileOf (cachePath w.query) = fileOf (cachePath query) ∧
      (DistinctFiles fileOf → w.query.Plain → query.Plain →
        kubectlArgs w.query = kubectlArgs query) := by
  have htraced : (Tools.run fileOf steps).Traced fileOf := Tools.traced_run steps
  unfold getCachedData at h
  cases hfile : (Tools.run fileOf steps).files.get (fileOf (cachePath query)) with
  | none =>
    rw [hfile] at h
    exact nomatch h
  | some file =>
    rw [hfile] at h
    dsimp only at h
    split_ifs at h with hage
    obtain ⟨w, hw, hname, rfl, htime⟩ := htraced.files _ file items hfile h
    refine ⟨w, hw, rfl, ?_, htraced.written w hw, hname, fun hfiles hplain hplain' => ?_⟩
    · rw [htime]
      exact not_lt.mp hage
    · exact kubectlArgs_of_cacheName hplain hplain' (cacheName_of_fileOf hfiles hplain hplain' hname)

def sampleQuery : ListQuery := ⟨"prod", "service", none, none⟩

/-- A list that one run of the tool has written, and that another finds just before its time is up. -/
def sampleListing : List (Step ℕ PurePath (List String)) :=
  [.listResources 0 sampleQuery true 0, .kubectl 0 (some ["web"]), .setCachedData 0 1 .written,
    .listResources 1 sampleQuery true 61]

theorem plain_sampleQuery : sampleQuery.Plain where
  selector := rfl
  resourceType := by decide +kernel
  namespace_ := by decide +kernel
  path := by decide +kernel

theorem cached_lists_are_recent_sampleListing :
    getCachedData id (Tools.run id sampleListing).files sampleQuery 61 = some ["web"] ∧
    ∃ w ∈ (Tools.run id sampleListing).written, w.items = ["web"] ∧ 61 - w.time ≤ cacheTtl ∧
      (w.query, ["web"]) ∈ (Tools.run id sampleListing).fetched ∧
      kubectlArgs w.query = kubectlArgs sampleQuery := by
  have hcached : getCachedData id (Tools.run id sampleListing).files sampleQuery 61 =
      some ["web"] := by decide +kernel
  obtain ⟨w, hw, hitems, htime, hfetched, -, hcommand⟩ :=
    cached_lists_are_recent id sampleListing sampleQuery 61 ["web"] hcached
  have hwritten : (Tools.run id sampleListing).written = [⟨sampleQuery, ["web"], 1⟩] := by
    decide +kernel
  have hquery : w.query = sampleQuery := by
    obtain rfl := List.mem_singleton.mp (hwritten ▸ hw)
    rfl
  have hdistinct : DistinctFiles (id : PurePath → PurePath) := fun _ _ _ _ heq =>
    List.append_cancel_left (congrArg PurePath.parts heq)
  exact ⟨hcached, w, hw, hitems, htime, hfetched,
    hcommand hdistinct (hquery ▸ plain_sampleQuery) plain_sampleQuery⟩

end KubeClient

end SvcLbMux
