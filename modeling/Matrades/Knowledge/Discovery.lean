import Mathlib.Data.List.Perm.Subperm
import Matrades.Base.Result
import Matrades.Shared.PyValue

/-!
# Video discovery

`serpapi_discover` reads search pages until it has `limit` new videos, has read `max_pages` pages or sees no
further page. A caller chains calls: the next one starts at `next_start` and skips the ids found so far.
A page that was cut at the limit is read again, so nothing behind the cut is lost. An item without a usable
id is passed over, unless reading it raises: then the call fails, and so does every later one that comes to
the page.
-/

namespace Matrades

open Base

/-- What `urlparse` gives of a URL. `hostname` is in lower case. -/
structure UrlParts where
  hostname : Option String
  path : String
  query : String
  deriving Repr

/-- The parts of Python's library that discovery reads. `urlparse` raises `ValueError` where it is `none`,
`queryValue query key` is `parse_qs(query).get(key, [""])[0]`, `repr` is `str` of what is no text, and
`isDigit`, `decimal` are those of the Unicode database. -/
structure DiscoveryEnv where
  urlparse : String → Option UrlParts
  queryValue : String → String → String
  repr : PyValue → String
  isDigit : Char → Bool
  decimal : Char → Option ℕ

structure YouTubeVideo where
  videoId : String
  url : String
  title : String
  description : String
  deriving DecidableEq, Repr

structure YouTubeDiscovery where
  videos : List YouTubeVideo
  nextStart : ℕ
  exhausted : Bool
  deriving DecidableEq, Repr

structure SearchRequest where
  q : String
  apiKey : String
  num : ℕ
  start : ℕ
  deriving DecidableEq, Repr

def youtubeHosts : List String := ["youtube.com", "www.youtube.com", "m.youtube.com", "youtu.be"]

/-- `re.fullmatch(r"[A-Za-z0-9_-]{6,20}", videoId)` -/
def validVideoId (videoId : String) : Bool :=
  videoId.toList.all (fun c => c.isAlphanum || c = '_' || c = '-') &&
    6 ≤ videoId.toList.length && videoId.toList.length ≤ 20

/-- `re.search(r"/(?:shorts|embed)/([^/?]+)", path)`: the group, or `""` where nothing matches. -/
def embeddedId : List Char → String
  | [] => ""
  | c :: path =>
    let behind := fun (name : String) =>
      if name.toList.isPrefixOf (c :: path) then
        ((c :: path).drop name.length).takeWhile fun d => d ≠ '/' && d ≠ '?'
      else []
    if behind "/shorts/" ≠ [] then String.ofList (behind "/shorts/")
    else if behind "/embed/" ≠ [] then String.ofList (behind "/embed/")
    else embeddedId path

namespace DiscoveryEnv

variable (env : DiscoveryEnv)

/-- `str(value)` -/
def str : PyValue → String
  | .str s => s
  | value => env.repr value

/-- `item.get(key) or … or default` -/
def getOr (item : PyValue) (default : String) : List String → Except PyError PyValue
  | [] => .ok (.str default)
  | key :: keys => do
    let value ← item.get key
    if value.truthy then .ok value else getOr item default keys

def videoIdFromUrl (value : String) : Except PyError (Option String) :=
  match env.urlparse value with
  | none => .error .valueError
  | some parsed =>
    let host := parsed.hostname.getD ""
    if host ∉ youtubeHosts then .ok none
    else
      let candidate :=
        if host = "youtu.be" then
          -- the first part of the path behind its slashes
          String.ofList ((parsed.path.toList.dropWhile (· = '/')).takeWhile (· ≠ '/'))
        else if parsed.path = "/watch" then env.queryValue parsed.query "v"
        else embeddedId parsed.path.toList
      .ok (if validVideoId candidate then some candidate else none)

def itemVideoId (item : PyValue) : Except PyError String := do
  let link ← getOr item "" ["link", "url"]
  let videoId ← item.get "video_id"
  if videoId.truthy then .ok (env.str videoId)
  else
    let fromUrl ← env.videoIdFromUrl (env.str link)
    .ok (fromUrl.getD "")

def itemVideo (item : PyValue) (videoId : String) : Except PyError YouTubeVideo := do
  let title ← getOr item videoId ["title"]
  let description ← getOr item "" ["snippet", "description"]
  .ok { videoId := videoId, url := "https://www.youtube.com/watch?v=" ++ videoId,
        title := env.str title, description := env.str description }

/-- The loop over a page's items: the results, the ids seen, and whether the limit was reached. -/
def scanItems (limit : ℕ) : List PyValue → List YouTubeVideo → List String →
    Except PyError (List YouTubeVideo × List String × Bool)
  | [], results, seen => .ok (results, seen, false)
  | item :: items, results, seen => do
    let videoId ← env.itemVideoId item
    if !validVideoId videoId || videoId ∈ seen then scanItems limit items results seen
    else
      let video ← env.itemVideo item videoId
      if limit ≤ (results ++ [video]).length then .ok (results ++ [video], videoId :: seen, true)
      else scanItems limit items (results ++ [video]) (videoId :: seen)

/-- `*(value or [])` -/
def spread (value : PyValue) : Except PyError (List PyValue) :=
  if !value.truthy then .ok []
  else
    match value with
    | .list items => .ok items
    | .dict fields => .ok (fields.map fun field => .str field.1)
    | .str s => .ok (s.toList.map fun c => .str c.toString)
    | _ => .error .typeError

def pageItems (body : PyValue) : Except PyError (List PyValue) := do
  let error ← body.get "error"
  if error.truthy then .error (.runtimeError "SerpApi rejected the search request")
  else
    let videos ← spread (← body.get "video_results")
    let organic ← spread (← body.get "organic_results")
    .ok (videos ++ organic)

/-- `int(value)` of a text that `isdigit` accepts. Python refuses more than 4300 digits. -/
def toInt (value : String) : Except PyError ℕ := do
  let digits ← value.toList.mapM fun c => orError (env.decimal c) PyError.valueError
  if 4300 < digits.length then .error .valueError
  else .ok (digits.foldl (fun n d => 10 * n + d) 0)

/-- The start of the next page, where the body names one behind this page. -/
def nextStart (body : PyValue) (start : ℕ) : Except PyError (Option ℕ) := do
  let pagination ← body.get "serpapi_pagination"
  let next ← getOr (if pagination.truthy then pagination else .dict []) "" ["next"]
  match env.urlparse (env.str next) with
  | none => .error .valueError
  | some parsed =>
    let value := env.queryValue parsed.query "start"
    if value = "" || !value.toList.all env.isDigit then .ok none
    else
      let next ← env.toInt value
      .ok (if next ≤ start then none else some next)

/-- The loop over the pages. `site start` is what the request for `start` gives: the body, or the error of the
request, of `raise_for_status` or of `json`. -/
def discoverPages (site : ℕ → Except PyError PyValue) (limit : ℕ) :
    ℕ → ℕ → List ℕ → List YouTubeVideo → List String → Except PyError YouTubeDiscovery
  | 0, start, _, results, _ => .ok ⟨results, start, false⟩
  | pages + 1, start, visited, results, seen => do
    let body ← site start
    let candidates ← pageItems body
    let (results, seen, full) ← env.scanItems limit candidates results seen
    -- the page is read again next time, for its remaining videos
    if full then .ok ⟨results, start, false⟩
    else
      match ← env.nextStart body start with
      | none => .ok ⟨results, 0, true⟩
      | some next =>
        if next ∈ start :: visited then .ok ⟨results, 0, true⟩
        else discoverPages site limit pages next (start :: visited) results seen

/-- `except (httpx.HTTPError, ValueError, TypeError, KeyError)` -/
def asUnavailable {α : Type} : Except PyError α → Except PyError α
  | .ok a => .ok a
  | .error e =>
    if e ∈ [PyError.httpError, .valueError, .typeError, .keyError] then
      .error (.runtimeError "SerpApi discovery is unavailable or timed out")
    else .error e

def searchRequest (apiKey query : String) (start : ℕ) : SearchRequest :=
  { q := "site:youtube.com " ++ query, apiKey := apiKey, num := 20, start := start }

def serpapiDiscover (site : SearchRequest → Except PyError PyValue) (apiKey query : String) (limit : ℕ)
    (skipVideoIds : List String) (start maxPages : ℕ) : Except PyError YouTubeDiscovery :=
  if apiKey = "" then .error .valueError
  else if ¬(1 ≤ limit ∧ limit ≤ 20) ∨ ¬(1 ≤ maxPages ∧ maxPages ≤ 5) then .error .valueError
  else
    asUnavailable
      (env.discoverPages (fun start => site (searchRequest apiKey query start)) limit maxPages start [] []
        skipVideoIds)

end DiscoveryEnv

/-- The limits of one call, as the call accepts them. -/
structure CallLimits where
  limit : ℕ
  maxPages : ℕ
  limit_pos : 1 ≤ limit
  limit_le : limit ≤ 20
  maxPages_pos : 1 ≤ maxPages
  maxPages_le : maxPages ≤ 5

/-- Where a chain of calls stands. -/
structure Discovered where
  start : ℕ
  ids : List String
  exhausted : Bool
  deriving DecidableEq, Repr

def Discovered.initial : Discovered := { start := 0, ids := [], exhausted := false }

/-- The next call of the chain. There is none once the search is exhausted. -/
def discoverNext (env : DiscoveryEnv) (site : SearchRequest → Except PyError PyValue) (apiKey query : String)
    (c : Discovered) (call : CallLimits) : Except PyError Discovered :=
  if c.exhausted then .ok c
  else do
    let d ← env.serpapiDiscover site apiKey query call.limit c.ids c.start call.maxPages
    .ok { start := d.nextStart, ids := c.ids ++ d.videos.map YouTubeVideo.videoId, exhausted := d.exhausted }

def discoverChain (env : DiscoveryEnv) (site : SearchRequest → Except PyError PyValue) (apiKey query : String)
    (calls : List CallLimits) : Except PyError Discovered :=
  calls.foldlM (discoverNext env site apiKey query) Discovered.initial

/-! ## Ids not seen before -/

section
variable {α : Type} [DecidableEq α]

/-- The first occurrences of what is not in `seen`. -/
def notSeen (seen : List α) : List α → List α
  | [] => []
  | x :: xs => if x ∈ seen then notSeen seen xs else x :: notSeen (x :: seen) xs

theorem mem_notSeen {seen xs : List α} {x : α} : x ∈ notSeen seen xs ↔ x ∈ xs ∧ x ∉ seen := by
  induction xs generalizing seen with
  | nil => simp [notSeen]
  | cons y xs ih =>
    rw [notSeen]
    by_cases hy : y ∈ seen
    · rw [if_pos hy, ih, List.mem_cons]
      refine ⟨fun h => ⟨.inr h.1, h.2⟩, fun h => ⟨?_, h.2⟩⟩
      rcases h.1 with rfl | hx
      · exact absurd hy h.2
      · exact hx
    · rw [if_neg hy, List.mem_cons, ih, List.mem_cons, List.mem_cons]
      by_cases hxy : x = y
      · subst hxy
        simp [hy]
      · simp [hxy]

theorem nodup_notSeen (seen xs : List α) : (notSeen seen xs).Nodup := by
  induction xs generalizing seen with
  | nil => exact List.nodup_nil
  | cons y xs ih =>
    rw [notSeen]
    split
    · exact ih seen
    · refine List.nodup_cons.2 ⟨fun h => ?_, ih _⟩
      exact (mem_notSeen.1 h).2 List.mem_cons_self

theorem notSeen_append (seen xs ys : List α) :
    notSeen seen (xs ++ ys) = notSeen seen xs ++ notSeen ((notSeen seen xs).reverse ++ seen) ys := by
  induction xs generalizing seen with
  | nil => rfl
  | cons x xs ih =>
    rw [List.cons_append, notSeen, notSeen]
    split
    · exact ih seen
    · rw [ih]
      simp

end

/-! ## One page -/

namespace DiscoveryEnv

variable {env : DiscoveryEnv} {limit : ℕ} {item : PyValue} {items : List PyValue}
  {results results' : List YouTubeVideo} {seen seen' : List String} {full : Bool}

/-- The item is an object that gives its video id itself or has a link that `urlparse` accepts. -/
def Readable (env : DiscoveryEnv) (item : PyValue) : Prop :=
  ∃ fields, item = .dict fields ∧
    (((fields.lookup "video_id").getD .none).truthy = true ∨
      ∀ link, getOr item "" ["link", "url"] = .ok link → (env.urlparse (env.str link)).isSome = true)

/-- The id of an item that the search takes. -/
def foundId (env : DiscoveryEnv) (item : PyValue) : Option String :=
  match env.itemVideoId item with
  | .ok videoId => if validVideoId videoId then some videoId else none
  | .error _ => none

theorem foundId_eq_some {videoId : String} :
    env.foundId item = some videoId ↔ env.itemVideoId item = .ok videoId ∧ validVideoId videoId = true := by
  unfold foundId
  cases env.itemVideoId item with
  | error e => simp
  | ok found =>
    by_cases hvalid : validVideoId found = true
    · simp only [hvalid, if_true, Option.some.injEq, Except.ok.injEq]
      refine ⟨fun h => ⟨h, h ▸ hvalid⟩, And.left⟩
    · simp only [hvalid, Except.ok.injEq]
      refine ⟨fun h => absurd h (by simp), fun h => absurd (h.1 ▸ h.2) hvalid⟩

theorem getOr_dict (fields : List (String × PyValue)) (default : String) (keys : List String) :
    ∃ value, getOr (.dict fields) default keys = .ok value := by
  induction keys with
  | nil => exact ⟨_, rfl⟩
  | cons key keys ih =>
    obtain ⟨value, hvalue⟩ := ih
    rw [getOr, bind_ok_eq (show (PyValue.dict fields).get key = .ok _ from rfl)]
    split
    · exact ⟨_, rfl⟩
    · exact ⟨value, hvalue⟩

theorem videoIdFromUrl_returns_iff {value : String} :
    (∃ found, env.videoIdFromUrl value = .ok found) ↔ (env.urlparse value).isSome = true := by
  unfold videoIdFromUrl
  cases env.urlparse value with
  | none => simp
  | some parsed =>
    refine ⟨fun _ => rfl, fun _ => ?_⟩
    dsimp only
    split
    · exact ⟨_, rfl⟩
    · exact ⟨_, rfl⟩

/-- Reading the id of an item raises exactly where the item is not readable. -/
theorem readable_iff : Readable env item ↔ ∃ videoId, env.itemVideoId item = .ok videoId := by
  cases item with
  | dict fields =>
    obtain ⟨link, hlink⟩ := getOr_dict fields "" ["link", "url"]
    have hid : (PyValue.dict fields).get "video_id" = .ok ((fields.lookup "video_id").getD .none) := rfl
    rw [itemVideoId, bind_ok_eq hlink, bind_ok_eq hid]
    by_cases hgiven : ((fields.lookup "video_id").getD .none).truthy = true
    · rw [if_pos hgiven]
      exact ⟨fun _ => ⟨_, rfl⟩, fun _ => ⟨fields, rfl, .inl hgiven⟩⟩
    · rw [if_neg hgiven]
      constructor
      · intro ⟨fields', heq, hread⟩
        cases heq
        have hparsed := hread.resolve_left hgiven link hlink
        obtain ⟨found, hfound⟩ := videoIdFromUrl_returns_iff.2 hparsed
        exact ⟨_, bind_ok_eq hfound _⟩
      · intro ⟨videoId, hok⟩
        obtain ⟨found, hfound, -⟩ := ok_of_bind hok
        refine ⟨fields, rfl, .inr fun link' hlink' => ?_⟩
        cases hlink.symm.trans hlink'
        exact videoIdFromUrl_returns_iff.1 ⟨found, hfound⟩
  | _ => exact ⟨fun ⟨_, heq, _⟩ => (by cases heq), fun ⟨_, hok⟩ => (by cases hok)⟩

/-- The texts of an object can be read. -/
theorem itemVideo_ok (h : Readable env item) (videoId : String) :
    ∃ video, env.itemVideo item videoId = .ok video ∧ video.videoId = videoId := by
  obtain ⟨fields, rfl, -⟩ := h
  obtain ⟨title, htitle⟩ := getOr_dict fields videoId ["title"]
  obtain ⟨description, hdescription⟩ := getOr_dict fields "" ["snippet", "description"]
  exact ⟨_, by rw [itemVideo, bind_ok_eq htitle, bind_ok_eq hdescription], rfl⟩

/-- The loop over a page takes a front part of its items, all of them readable, and adds their new ids. It
leaves out none unless the limit is reached. -/
theorem scanItems_ok (h : env.scanItems limit items results seen = .ok (results', seen', full))
    (hroom : results.length < limit) :
    ∃ taken rest, items = taken ++ rest ∧ (∀ item ∈ taken, Readable env item) ∧
      results'.map YouTubeVideo.videoId =
        results.map YouTubeVideo.videoId ++ notSeen seen (taken.filterMap env.foundId) ∧
      seen' = (notSeen seen (taken.filterMap env.foundId)).reverse ++ seen ∧
      (full = true → limit ≤ results'.length) ∧
      (full = false → rest = [] ∧ results'.length < limit) := by
  induction items generalizing results seen with
  | nil =>
    cases h
    exact ⟨[], [], rfl, by simp, by simp [notSeen], rfl, by simp, fun _ => ⟨rfl, hroom⟩⟩
  | cons item items ih =>
    obtain ⟨videoId, hid, h⟩ := ok_of_bind h
    have hread : Readable env item := readable_iff.2 ⟨videoId, hid⟩
    split at h
    next hskip =>
      obtain ⟨taken, rest, rfl, htaken, hresults, hseen, hfull, hall⟩ := ih h hroom
      have hids : notSeen seen ((item :: taken).filterMap env.foundId) =
          notSeen seen (taken.filterMap env.foundId) := by
        cases hfound : env.foundId item with
        | none => rw [List.filterMap_cons_none hfound]
        | some found =>
          obtain ⟨hok, hvalid⟩ := foundId_eq_some.1 hfound
          cases hid.symm.trans hok
          have hmem : videoId ∈ seen := by simpa [hvalid] using hskip
          rw [List.filterMap_cons_some hfound, notSeen, if_pos hmem]
      refine ⟨item :: taken, rest, rfl, ?_, ?_, ?_, hfull, hall⟩
      · exact List.forall_mem_cons.2 ⟨hread, htaken⟩
      · rw [hids, hresults]
      · rw [hids, hseen]
    next htake =>
      have hvalid : validVideoId videoId = true ∧ videoId ∉ seen := by simpa using htake
      have hfound : env.foundId item = some videoId := foundId_eq_some.2 ⟨hid, hvalid.1⟩
      obtain ⟨video, hvideo, hname⟩ := itemVideo_ok hread videoId
      rw [bind_ok_eq hvideo] at h
      have hids : ∀ taken : List PyValue, notSeen seen ((item :: taken).filterMap env.foundId) =
          videoId :: notSeen (videoId :: seen) (taken.filterMap env.foundId) := fun taken => by
        rw [List.filterMap_cons_some hfound, notSeen, if_neg hvalid.2]
      split at h
      next hlimit =>
        cases h
        refine ⟨[item], items, rfl, by simpa using hread, ?_, ?_, fun _ => hlimit, by simp⟩
        · rw [hids]
          simp [notSeen, hname]
        · rw [hids]
          simp [notSeen]
      next hlimit =>
        obtain ⟨taken, rest, rfl, htaken, hresults, hseen, hfull, hall⟩ := ih h (by omega)
        refine ⟨item :: taken, rest, rfl, ?_, ?_, ?_, hfull, hall⟩
        · exact List.forall_mem_cons.2 ⟨hread, htaken⟩
        · rw [hids, hresults]
          simp [hname]
        · rw [hids, hseen]
          simp

theorem scanItems_readable (h : ∀ item ∈ items, Readable env item) :
    ∃ scanned, env.scanItems limit items results seen = .ok scanned := by
  induction items generalizing results seen with
  | nil => exact ⟨_, rfl⟩
  | cons item items ih =>
    obtain ⟨hread, hrest⟩ := List.forall_mem_cons.1 h
    obtain ⟨videoId, hid⟩ := readable_iff.1 hread
    rw [scanItems, bind_ok_eq hid]
    split
    · exact ih hrest
    · obtain ⟨video, hvideo, -⟩ := itemVideo_ok hread videoId
      rw [bind_ok_eq hvideo]
      split
      · exact ⟨_, rfl⟩
      · exact ih hrest

/-! ## One call -/

/-- The result pages from `start` on, as a search that does not change gives them: the items of each, the
last of them naming no page behind it. -/
inductive Pages (env : DiscoveryEnv) (site : ℕ → Except PyError PyValue) : ℕ → List (List PyValue) → Prop
  | last {start : ℕ} {body : PyValue} {items : List PyValue} (hbody : site start = .ok body)
      (hitems : pageItems body = .ok items) (hnext : env.nextStart body start = .ok none) :
      Pages env site start [items]
  | more {start next : ℕ} {body : PyValue} {items : List PyValue} {pages : List (List PyValue)}
      (hbody : site start = .ok body) (hitems : pageItems body = .ok items)
      (hnext : env.nextStart body start = .ok (some next)) (hpages : Pages env site next pages) :
      Pages env site start (items :: pages)

theorem Pages.ne_nil {site : ℕ → Except PyError PyValue} {start : ℕ} {pages : List (List PyValue)}
    (h : Pages env site start pages) : pages ≠ [] := by
  cases h <;> simp

theorem nextStart_gt {body : PyValue} {start next : ℕ} (h : env.nextStart body start = .ok (some next)) :
    start < next := by
  unfold nextStart at h
  obtain ⟨pagination, -, h⟩ := ok_of_bind h
  obtain ⟨link, -, h⟩ := ok_of_bind h
  split at h
  · cases h
  · dsimp only at h
    split at h
    · cases h
    · obtain ⟨n, -, h⟩ := ok_of_bind h
      split at h
      · cases h
      · cases h
        omega

/-- What a search of the pages came to: it took `taken`, the whole of the pages `front` among it, and `back`
is what the next call begins with. -/
structure Searched (env : DiscoveryEnv) (site : ℕ → Except PyError PyValue) (pages : List (List PyValue))
    (skip : List String) (d : YouTubeDiscovery) (front back : List (List PyValue)) (taken : List PyValue)
    (old : List String) : Prop where
  split : pages = front ++ back
  readable : ∀ item ∈ taken, Readable env item
  front_taken : ∀ item ∈ front.flatten, item ∈ taken
  taken_mem : ∀ item ∈ taken, item ∈ pages.flatten
  ids : d.videos.map YouTubeVideo.videoId = old ++ notSeen skip (taken.filterMap env.foundId)
  done : d.exhausted = true → back = []
  resume : d.exhausted = false → Pages env site d.nextStart back

section
variable {site : ℕ → Except PyError PyValue} {start n : ℕ} {pages : List (List PyValue)} {visited : List ℕ}
  {d : YouTubeDiscovery}

theorem discoverPages_ok (hpages : Pages env site start pages) (hvisited : ∀ v ∈ visited, v < start)
    (hroom : results.length < limit)
    (h : env.discoverPages site limit n start visited results seen = .ok d) :
    ∃ front back taken,
      Searched env site pages seen d front back taken (results.map YouTubeVideo.videoId) ∧
      (d.exhausted = false → n = 0 ∨ front ≠ [] ∨ limit ≤ d.videos.length) := by
  induction n generalizing start pages visited results seen with
  | zero =>
    cases h
    refine ⟨[], pages, [], ⟨rfl, by simp, by simp, by simp, by simp [notSeen], by simp, fun _ => hpages⟩, ?_⟩
    exact fun _ => .inl rfl
  | succ n ih =>
    cases hpages with
    | @last start body items hbody hitems hnext =>
      rw [discoverPages, bind_ok_eq hbody, bind_ok_eq hitems] at h
      obtain ⟨⟨results', seen', full⟩, hscan, hcall⟩ := ok_of_bind h
      obtain ⟨taken, rest, rfl, htaken, hresults, -, hfull, hall⟩ := scanItems_ok hscan hroom
      dsimp only at hcall
      split at hcall
      next hcut =>
        cases hcall
        refine ⟨[], [taken ++ rest], taken, ⟨rfl, htaken, by simp, ?_, hresults, by simp, ?_⟩, ?_⟩
        · intro item hitem
          simp [hitem]
        · exact fun _ => .last hbody hitems hnext
        · exact fun _ => .inr (.inr (hfull hcut))
      next hcut =>
        obtain ⟨rfl, -⟩ := hall (by simpa using hcut)
        rw [bind_ok_eq hnext] at hcall
        cases hcall
        rw [List.append_nil] at *
        refine ⟨[taken], [], taken, ⟨rfl, htaken, by simp, by simp, hresults, fun _ => rfl, by simp⟩, by simp⟩
    | @more start next body items pages hbody hitems hnext hpages =>
      rw [discoverPages, bind_ok_eq hbody, bind_ok_eq hitems] at h
      obtain ⟨⟨results', seen', full⟩, hscan, hcall⟩ := ok_of_bind h
      obtain ⟨taken, rest, rfl, htaken, hresults, hseen, hfull, hall⟩ := scanItems_ok hscan hroom
      dsimp only at hcall
      split at hcall
      next hcut =>
        cases hcall
        refine ⟨[], (taken ++ rest) :: pages, taken, ⟨rfl, htaken, by simp, ?_, hresults, by simp, ?_⟩, ?_⟩
        · intro item hitem
          simp [hitem]
        · exact fun _ => .more hbody hitems hnext hpages
        · exact fun _ => .inr (.inr (hfull hcut))
      next hcut =>
        obtain ⟨rfl, hroom'⟩ := hall (by simpa using hcut)
        rw [bind_ok_eq hnext] at hcall
        rw [List.append_nil] at *
        have hgt := nextStart_gt hnext
        have hnew : ∀ v ∈ start :: visited, v < next := by
          intro v hv
          rcases List.mem_cons.1 hv with rfl | hv
          · exact hgt
          · exact (hvisited v hv).trans hgt
        have hunvisited : next ∉ start :: visited := fun hmem => absurd (hnew next hmem) (lt_irrefl next)
        dsimp only at hcall
        rw [if_neg hunvisited] at hcall
        -- the pages behind this one, with the ids of this one skipped
        obtain ⟨front, back, behind, hsearch, -⟩ := ih hpages hnew hroom' hcall
        refine ⟨taken :: front, back, taken ++ behind, ⟨?_, ?_, ?_, ?_, ?_, hsearch.done, hsearch.resume⟩, ?_⟩
        · rw [hsearch.split]
          rfl
        · exact List.forall_mem_append.2 ⟨htaken, hsearch.readable⟩
        · intro item hitem
          rw [List.flatten_cons, List.mem_append] at hitem
          exact List.mem_append.2 (hitem.imp_right (hsearch.front_taken item))
        · intro item hitem
          rw [List.flatten_cons]
          exact List.mem_append.2 ((List.mem_append.1 hitem).imp_right (hsearch.taken_mem item))
        · rw [hsearch.ids, hresults, hseen, List.filterMap_append, notSeen_append, List.append_assoc]
        · simp

theorem discoverPages_readable (hpages : Pages env site start pages) (h : ∀ item ∈ pages.flatten, Readable env item) :
    ∃ d, env.discoverPages site limit n start visited results seen = .ok d := by
  induction n generalizing start pages visited results seen with
  | zero => exact ⟨_, rfl⟩
  | succ n ih =>
    cases hpages with
    | @last start body items hbody hitems hnext =>
      have hread : ∀ item ∈ items, Readable env item := fun item hitem => h item (by simpa using hitem)
      obtain ⟨⟨results', seen', full⟩, hscan⟩ := @scanItems_readable env limit items results seen hread
      rw [discoverPages, bind_ok_eq hbody, bind_ok_eq hitems, bind_ok_eq hscan]
      dsimp only
      split
      · exact ⟨_, rfl⟩
      · rw [bind_ok_eq hnext]
        exact ⟨_, rfl⟩
    | @more start next body items pages hbody hitems hnext hpages =>
      have hread : ∀ item ∈ items, Readable env item := fun item hitem => h item (by simp [hitem])
      obtain ⟨⟨results', seen', full⟩, hscan⟩ := @scanItems_readable env limit items results seen hread
      rw [discoverPages, bind_ok_eq hbody, bind_ok_eq hitems, bind_ok_eq hscan]
      dsimp only
      split
      · exact ⟨_, rfl⟩
      · rw [bind_ok_eq hnext]
        dsimp only
        split
        · exact ⟨_, rfl⟩
        · exact ih hpages fun item hitem => h item (by simp [hitem])

end

end DiscoveryEnv

/-! ## A chain of calls -/

namespace Discovered

open DiscoveryEnv

variable {env : DiscoveryEnv} {site : SearchRequest → Except PyError PyValue} {apiKey query : String}
  {front back pages : List (List PyValue)} {c c' : Discovered} {call : CallLimits} {calls : List CallLimits}

/-- The pages that the search for `query` gives, by their start. -/
def pagesFrom (env : DiscoveryEnv) (site : SearchRequest → Except PyError PyValue) (apiKey query : String) :
    ℕ → List (List PyValue) → Prop :=
  Pages env fun start => site (searchRequest apiKey query start)

/-- The chain has taken all of the pages `front`, perhaps more, and goes on with `back`. -/
structure Resumes (env : DiscoveryEnv) (site : SearchRequest → Except PyError PyValue) (apiKey query : String)
    (front back : List (List PyValue)) (c : Discovered) : Prop where
  readable : ∀ item ∈ front.flatten, Readable env item
  covered : ∀ item ∈ front.flatten, ∀ id, env.foundId item = some id → id ∈ c.ids
  sound : ∀ id ∈ c.ids, ∃ item ∈ (front ++ back).flatten, env.foundId item = some id
  nodup : c.ids.Nodup
  done : c.exhausted = true → back = []
  resume : c.exhausted = false → pagesFrom env site apiKey query c.start back

theorem resumes_initial (h : pagesFrom env site apiKey query 0 pages) :
    Resumes env site apiKey query [] pages Discovered.initial where
  readable := by simp
  covered := by simp
  sound := by simp [Discovered.initial]
  nodup := List.nodup_nil
  done := by simp [Discovered.initial]
  resume := fun _ => h

theorem serpapiDiscover_eq (hkey : apiKey ≠ "") (call : CallLimits) (ids : List String) (start : ℕ) :
    env.serpapiDiscover site apiKey query call.limit ids start call.maxPages =
      asUnavailable (env.discoverPages (fun start => site (searchRequest apiKey query start)) call.limit
        call.maxPages start [] [] ids) := by
  have hlimit : ¬(¬(1 ≤ call.limit ∧ call.limit ≤ 20) ∨ ¬(1 ≤ call.maxPages ∧ call.maxPages ≤ 5)) := by
    have := call.limit_pos
    have := call.limit_le
    have := call.maxPages_pos
    have := call.maxPages_le
    omega
  rw [serpapiDiscover, if_neg hkey, if_neg hlimit]

theorem ok_of_asUnavailable {α : Type} {t : Except PyError α} {a : α} (h : asUnavailable t = .ok a) :
    t = .ok a := by
  cases t with
  | ok b => exact h
  | error e =>
    rw [asUnavailable] at h
    split at h
    · cases h
    · cases h

theorem discoverNext_exhausted (h : c.exhausted = true) :
    discoverNext env site apiKey query c call = .ok c := by
  rw [discoverNext, if_pos h]

theorem chain_exhausted (h : c.exhausted = true) :
    calls.foldlM (discoverNext env site apiKey query) c = .ok c := by
  induction calls with
  | nil => rfl
  | cons call calls ih => rw [List.foldlM_cons, bind_ok_eq (discoverNext_exhausted h), ih]

/-- One call of a chain that is not at its end moves it on: by a page, by an id, or to its end. -/
theorem Resumes.next (h : Resumes env site apiKey query front back c) (hgo : c.exhausted = false)
    (hkey : apiKey ≠ "") (hnext : discoverNext env site apiKey query c call = .ok c') :
    ∃ passed left, back = passed ++ left ∧ Resumes env site apiKey query (front ++ passed) left c' ∧
      (c'.exhausted = false →
        front.length + c.ids.length < (front ++ passed).length + c'.ids.length) := by
  rw [discoverNext, hgo] at hnext
  obtain ⟨d, hd, hnext⟩ := ok_of_bind hnext
  cases hnext
  rw [serpapiDiscover_eq hkey] at hd
  have hpages := h.resume hgo
  have hroom : ([] : List YouTubeVideo).length < call.limit := call.limit_pos
  obtain ⟨passed, left, taken, hsearch, hprogress⟩ :=
    discoverPages_ok hpages (by simp) hroom (ok_of_asUnavailable hd)
  have hids : d.videos.map YouTubeVideo.videoId = notSeen c.ids (taken.filterMap env.foundId) := hsearch.ids
  refine ⟨passed, left, hsearch.split, ⟨?_, ?_, ?_, ?_, hsearch.done, hsearch.resume⟩, ?_⟩
  · intro item hitem
    rw [List.flatten_append, List.mem_append] at hitem
    rcases hitem with hitem | hitem
    · exact h.readable item hitem
    · exact hsearch.readable item (hsearch.front_taken item hitem)
  · intro item hitem id hid
    rw [List.flatten_append, List.mem_append] at hitem
    show id ∈ c.ids ++ _
    rw [hids, List.mem_append, mem_notSeen]
    by_cases hold : id ∈ c.ids
    · exact .inl hold
    · rcases hitem with hitem | hitem
      · exact .inl (h.covered item hitem id hid)
      · exact .inr ⟨List.mem_filterMap.2 ⟨item, hsearch.front_taken item hitem, hid⟩, hold⟩
  · intro id hid
    rw [List.append_assoc, ← hsearch.split]
    rcases List.mem_append.1 hid with hid | hid
    · exact h.sound id hid
    · rw [hids, mem_notSeen] at hid
      obtain ⟨item, hitem, hfound⟩ := List.mem_filterMap.1 hid.1
      refine ⟨item, ?_, hfound⟩
      rw [List.flatten_append]
      exact List.mem_append_right _ (hsearch.taken_mem item hitem)
  · show (c.ids ++ _).Nodup
    rw [hids]
    exact h.nodup.append (nodup_notSeen _ _) fun id hold hnew => (mem_notSeen.1 hnew).2 hold
  · intro hlive
    have hlimit := call.limit_pos
    have hmaxPages := call.maxPages_pos
    have hlength : (c.ids ++ d.videos.map YouTubeVideo.videoId).length = c.ids.length + d.videos.length := by
      simp
    show _ < _ + (c.ids ++ d.videos.map YouTubeVideo.videoId).length
    rw [hlength, List.length_append]
    rcases hprogress hlive with hnone | hfront | hfull
    · omega
    · have := List.length_pos_of_ne_nil hfront
      omega
    · omega

theorem Resumes.next_ok (h : Resumes env site apiKey query front back c) (hgo : c.exhausted = false)
    (hkey : apiKey ≠ "") (hread : ∀ item ∈ back.flatten, Readable env item) :
    ∃ c', discoverNext env site apiKey query c call = .ok c' := by
  obtain ⟨d, hd⟩ := @discoverPages_readable env call.limit [] c.ids
    (fun start => site (searchRequest apiKey query start)) c.start call.maxPages back [] (h.resume hgo) hread
  have hcall := @serpapiDiscover_eq env site apiKey query hkey call c.ids c.start
  rw [hd] at hcall
  rw [discoverNext, hgo]
  exact ⟨_, bind_ok_eq hcall _⟩

/-- A chain that is not at its end has moved on with each of its calls. -/
theorem Resumes.chain (h : Resumes env site apiKey query front back c) (hkey : apiKey ≠ "")
    (hrun : calls.foldlM (discoverNext env site apiKey query) c = .ok c') :
    ∃ passed left, back = passed ++ left ∧ Resumes env site apiKey query (front ++ passed) left c' ∧
      (c'.exhausted = false →
        front.length + c.ids.length + calls.length ≤ (front ++ passed).length + c'.ids.length) := by
  induction calls generalizing front back c with
  | nil =>
    cases hrun
    exact ⟨[], back, rfl, by simpa using h, by simp⟩
  | cons call calls ih =>
    cases hend : c.exhausted with
    | true =>
      rw [chain_exhausted hend] at hrun
      cases hrun
      exact ⟨[], back, rfl, by simpa using h, by simp [hend]⟩
    | false =>
      rw [List.foldlM_cons] at hrun
      obtain ⟨middle, hnext, hrest⟩ := ok_of_bind hrun
      obtain ⟨passed, left, rfl, hmiddle, hmove⟩ := h.next hend hkey hnext
      obtain ⟨passed', left', rfl, hlast, hmove'⟩ := ih hmiddle hrest
      refine ⟨passed ++ passed', left', by simp, by simpa using hlast, fun hlive => ?_⟩
      -- a chain whose end is not reached was not at its end before
      have hgo : middle.exhausted = false := by
        by_contra hstop
        rw [chain_exhausted (by simpa using hstop)] at hrest
        cases hrest
        exact hstop hlive
      have := hmove hgo
      have := hmove' hlive
      simp only [List.length_append, List.length_cons] at *
      omega

theorem Resumes.chain_ok (h : Resumes env site apiKey query front back c) (hkey : apiKey ≠ "")
    (hread : ∀ item ∈ back.flatten, Readable env item) :
    ∃ c', calls.foldlM (discoverNext env site apiKey query) c = .ok c' := by
  induction calls generalizing front back c with
  | nil => exact ⟨c, rfl⟩
  | cons call calls ih =>
    cases hend : c.exhausted with
    | true => exact ⟨c, chain_exhausted hend⟩
    | false =>
      obtain ⟨middle, hnext⟩ : ∃ c', discoverNext env site apiKey query c call = .ok c' :=
        h.next_ok hend hkey hread
      obtain ⟨passed, left, rfl, hmiddle, -⟩ := h.next hend hkey hnext
      rw [List.foldlM_cons, bind_ok_eq hnext]
      exact ih hmiddle fun item hitem => hread item (by simp [List.mem_flatten.1 hitem])

/-- Enough calls of the chain come to its end, with each valid id of the pages once. -/
def Completes (env : DiscoveryEnv) (site : SearchRequest → Except PyError PyValue) (apiKey query : String)
    (pages : List (List PyValue)) : Prop :=
  ∃ enough : ℕ, ∀ calls : List CallLimits, enough ≤ calls.length →
    ∃ c, discoverChain env site apiKey query calls = .ok c ∧ c.exhausted = true ∧ c.ids.Nodup ∧
      ∀ id, id ∈ c.ids ↔ ∃ item ∈ pages.flatten, env.foundId item = some id

theorem Resumes.ids_length_le (h : Resumes env site apiKey query front back c) :
    c.ids.length ≤ (front ++ back).flatten.length := by
  have hsubset : c.ids ⊆ (front ++ back).flatten.filterMap env.foundId := fun id hid => by
    obtain ⟨item, hitem, hfound⟩ := h.sound id hid
    exact List.mem_filterMap.2 ⟨item, hitem, hfound⟩
  exact (h.nodup.subperm hsubset).length_le.trans (List.length_filterMap_le _ _)

/-- A chain of calls yields every valid id of the pages once and ends, if and only if every item of the pages
can be read: an item that is no object, or a link that `urlparse` rejects, ends every call that comes to it
with an error. -/
theorem chain_completes_iff (hkey : apiKey ≠ "") (hpages : pagesFrom env site apiKey query 0 pages) :
    Completes env site apiKey query pages ↔ ∀ item ∈ pages.flatten, Readable env item := by
  have hstart := resumes_initial hpages
  constructor
  · intro ⟨enough, hcomplete⟩
    let call : CallLimits := ⟨1, 1, by omega, by omega, by omega, by omega⟩
    obtain ⟨c, hrun, hend, -, -⟩ := hcomplete (List.replicate enough call) (by simp)
    obtain ⟨front, back, rfl, hlast, -⟩ := hstart.chain hkey hrun
    rw [hlast.done hend, List.append_nil]
    exact hlast.readable
  · intro hread
    refine ⟨pages.length + pages.flatten.length, fun calls hcalls => ?_⟩
    obtain ⟨c, hrun⟩ : ∃ c, discoverChain env site apiKey query calls = .ok c := hstart.chain_ok hkey hread
    obtain ⟨front, back, rfl, hlast, hmove⟩ := hstart.chain hkey hrun
    rw [List.nil_append] at *
    have hend : c.exhausted = true := by
      by_contra hlive
      have hlive : c.exhausted = false := by simpa using hlive
      have hback := List.length_pos_of_ne_nil (hlast.resume hlive).ne_nil
      have := hmove hlive
      have := hlast.ids_length_le
      simp only [List.length_append, List.length_nil] at *
      omega
    refine ⟨c, hrun, hend, hlast.nodup, fun id => ⟨hlast.sound id, fun ⟨item, hitem, hfound⟩ => ?_⟩⟩
    rw [hlast.done hend, List.append_nil] at hitem
    exact hlast.covered item hitem id hfound

/-- Python's answers on the texts of the two searches below. -/
def exampleEnv : DiscoveryEnv where
  urlparse url :=
    if url = "https://[www.youtube.com/watch?v=dQw4w9WgXcQ" then none
    else if url = "https://serpapi.com/search.json?start=20" then
      some ⟨some "serpapi.com", "/search.json", "start=20"⟩
    else if url = "https://www.youtube.com/watch?v=dQw4w9WgXcQ" then
      some ⟨some "www.youtube.com", "/watch", "v=dQw4w9WgXcQ"⟩
    else some ⟨none, "", ""⟩
  queryValue query key :=
    if query = "start=20" ∧ key = "start" then "20"
    else if query = "v=dQw4w9WgXcQ" ∧ key = "v" then "dQw4w9WgXcQ"
    else ""
  repr _ := ""
  isDigit c := c.isDigit
  decimal c := if c.isDigit then some (c.toNat - 48) else none

def linkItem (link : String) : PyValue := .dict [("title", .str "Opening range"), ("link", .str link)]

/-- Two pages: a link and an item without an id, then the same video by its id and another one. -/
def twoPages : List (List PyValue) :=
  [[linkItem "https://www.youtube.com/watch?v=dQw4w9WgXcQ", .dict [("title", .str "No link")]],
    [.dict [("video_id", .str "dQw4w9WgXcQ")], .dict [("video_id", .str "a1b2c3d4e5f")]]]

def twoPageSite (request : SearchRequest) : Except PyError PyValue :=
  if request.start = 0 then
    .ok (.dict [("organic_results", .list (twoPages.headD [])),
      ("serpapi_pagination", .dict [("next", .str "https://serpapi.com/search.json?start=20")])])
  else .ok (.dict [("video_results", .list ((twoPages.drop 1).headD []))])

theorem twoPages_complete : Completes exampleEnv twoPageSite "key" "opening range" twoPages := by
  have hkey : "key" ≠ "" := by decide
  have hpages : pagesFrom exampleEnv twoPageSite "key" "opening range" 0 twoPages :=
    .more rfl rfl rfl (.last rfl rfl rfl)
  refine (chain_completes_iff hkey hpages).2 ?_
  simp only [twoPages, List.flatten_cons, List.flatten_nil, List.cons_append, List.nil_append,
    List.forall_mem_cons]
  have hread : ∀ {item : PyValue}, (∃ videoId, exampleEnv.itemVideoId item = .ok videoId) →
      Readable exampleEnv item := readable_iff.2
  exact ⟨hread ⟨_, rfl⟩, hread ⟨_, rfl⟩, hread ⟨_, rfl⟩, hread ⟨_, rfl⟩, by simp⟩

/-- A page with a link that `urlparse` rejects, in front of a valid video. -/
def brokenPage : List PyValue :=
  [linkItem "https://[www.youtube.com/watch?v=dQw4w9WgXcQ", .dict [("video_id", .str "a1b2c3d4e5f")]]

def brokenSite (_ : SearchRequest) : Except PyError PyValue :=
  .ok (.dict [("organic_results", .list brokenPage)])

/-- The invalid item is not passed over: every call fails, and the valid video behind it is never found. -/
theorem brokenPage_incomplete :
    pagesFrom exampleEnv brokenSite "key" "opening range" 0 [brokenPage] ∧
      ¬Completes exampleEnv brokenSite "key" "opening range" [brokenPage] := by
  refine ⟨.last rfl rfl rfl, fun ⟨enough, hcomplete⟩ => ?_⟩
  let call : CallLimits := ⟨5, 3, by omega, by omega, by omega, by omega⟩
  obtain ⟨c, hrun, -⟩ := hcomplete (List.replicate (enough + 1) call) (by simp)
  rw [discoverChain, List.replicate_succ, List.foldlM_cons] at hrun
  have hfail : discoverNext exampleEnv brokenSite "key" "opening range" Discovered.initial call =
      .error (.runtimeError "SerpApi discovery is unavailable or timed out") := rfl
  rw [bind_error_eq hfail] at hrun
  cases hrun

end Discovered

end Matrades
