import Mathlib.Data.Finset.Card
import Mathlib.Data.Finset.Dedup
import StreamQuery.Proofs.CacheTransparency

/-!
# What a cache keeps

A cache keeps the statements whose texts were requested last. Texts count as one where they are the
same without the blanks around them, those that are no statement do not count, and nothing counts
that was requested before the last clearing. So whether a request shares an earlier tree is seen
from the requests in between: there must be fewer other texts among them than the cache has room for.
-/

namespace StreamQuery

/-! ## Lists without repetitions -/

section Repetitions

variable {α : Type} [DecidableEq α]

theorem eraseDups_concat (l : List α) (a : α) :
    (l ++ [a]).eraseDups = l.eraseDups ++ if a ∈ l then [] else [a] := by
  rw [List.eraseDups_append]
  by_cases among : a ∈ l <;> simp [List.removeAll, among, List.eraseDups_cons]

theorem nodup_eraseDups (l : List α) : l.eraseDups.Nodup := by
  induction l using List.reverseRecOn with
  | nil => exact List.nodup_nil
  | append_singleton l a ih =>
    rw [eraseDups_concat]
    by_cases among : a ∈ l
    · simpa [among] using ih
    · rw [if_neg among]
      refine List.nodup_append.mpr ⟨ih, List.nodup_singleton a, ?_⟩
      rintro b member _ same rfl
      rw [List.mem_singleton.mp same] at member
      exact among (List.mem_eraseDups.mp member)

theorem eraseDups_filter (l : List α) (p : α → Bool) : (l.filter p).eraseDups = l.eraseDups.filter p := by
  induction l using List.reverseRecOn with
  | nil => rfl
  | append_singleton l a ih =>
    rw [List.filter_append, eraseDups_concat, List.filter_append, ← ih]
    cases holds : p a with
    | false => by_cases among : a ∈ l <;> simp [holds, among]
    | true =>
      rw [List.filter_cons_of_pos holds, List.filter_nil, eraseDups_concat]
      by_cases among : a ∈ l <;> simp [holds, among]

theorem length_eraseDups (l : List α) : l.eraseDups.length = l.toFinset.card := by
  rw [← List.toFinset_card_of_nodup (nodup_eraseDups l)]
  congr 1
  ext a
  simp [List.mem_eraseDups]

theorem others_of_absent {l : List α} {a : α} (absent : a ∉ l) : l.filter (· ≠ a) = l :=
  List.filter_eq_self.mpr fun _ member => decide_eq_true fun same => absent (same ▸ member)

theorem take_others {l : List α} {a : α} {n : Nat} (absent : a ∉ l.take n) :
    (l.filter (· ≠ a)).take n = l.take n := by
  induction l generalizing n with
  | nil => rfl
  | cons b rest ih =>
    cases n with
    | zero => rfl
    | succ n =>
      rw [List.take_succ_cons, List.mem_cons, not_or] at absent
      rw [List.filter_cons_of_pos (by simpa using Ne.symm absent.1), List.take_succ_cons, ih absent.2,
        List.take_succ_cons]

theorem others_take {l : List α} (nodup : l.Nodup) {a : α} {n : Nat} (among : a ∈ l.take (n + 1)) :
    (l.take (n + 1)).filter (· ≠ a) = (l.filter (· ≠ a)).take n := by
  induction l generalizing n with
  | nil => simp at among
  | cons b rest ih =>
    obtain ⟨fresh, nodup⟩ := List.nodup_cons.mp nodup
    rw [List.take_succ_cons] at among ⊢
    by_cases same : b = a
    · subst same
      have front : b ∉ rest.take n := fun member => fresh (List.mem_of_mem_take member)
      rw [List.filter_cons_of_neg (by simp), List.filter_cons_of_neg (by simp), others_of_absent front,
        others_of_absent fresh]
    · have later : a ∈ rest.take n := (List.mem_cons.mp among).resolve_left (Ne.symm same)
      cases n with
      | zero => simp at later
      | succ n =>
        rw [List.filter_cons_of_pos (by simpa using same), List.filter_cons_of_pos (by simpa using same),
          List.take_succ_cons, ih nodup later]

end Repetitions

/-! ## Stores that keep what was used last -/

/-- What a cache relies on: what a store keeps stands in a list, the most recently used first. A
    statement that is found comes to its front, and so does one that is put; where that leaves more
    than there is room for, the last one goes. -/
class RecencyStore (κ : Type) [StatementStore κ] where
  capacity : κ → Nat
  recent : κ → List (String × SharedStatement)
  capacity_ofCapacity (n : Nat) (positive : 0 < n) : capacity (StatementStore.ofCapacity n positive) = n
  recent_ofCapacity (n : Nat) (positive : 0 < n) : recent (StatementStore.ofCapacity n positive) = []
  capacity_clear (store : κ) : capacity (StatementStore.clear store) = capacity store
  recent_clear (store : κ) : recent (StatementStore.clear store) = []
  size_eq (store : κ) : StatementStore.size store = (recent store).length
  get_eq (store : κ) (key : String) : (StatementStore.get store key).1 = (recent store).lookup key
  capacity_get (store : κ) (key : String) : capacity (StatementStore.get store key).2 = capacity store
  recent_get (store : κ) {key : String} {s : SharedStatement} (found : (recent store).lookup key = some s) :
    recent (StatementStore.get store key).2 = (key, s) :: (recent store).filter (·.1 ≠ key)
  recent_get_absent (store : κ) {key : String} (absent : (recent store).lookup key = none) :
    recent (StatementStore.get store key).2 = recent store
  capacity_put (store : κ) (key : String) (s : SharedStatement) :
    capacity (StatementStore.put store key s) = capacity store
  recent_put (store : κ) {key : String} (s : SharedStatement) (absent : (recent store).lookup key = none) :
    recent (StatementStore.put store key s) = ((key, s) :: recent store).take (capacity store)

/-- A text under which nothing is kept is none of the keys. -/
theorem lookup_eq_none {entries : List (String × SharedStatement)} {key : String} :
    entries.lookup key = none ↔ key ∉ entries.map Prod.fst := by
  rw [List.lookup_eq_none_iff, List.mem_map, not_exists]
  exact forall_congr' fun entry => by simp [bne_iff_ne, imp_not_comm, eq_comm (a := key)]

theorem keys_others (entries : List (String × SharedStatement)) (key : String) :
    (entries.filter (·.1 ≠ key)).map Prod.fst = (entries.map Prod.fst).filter (· ≠ key) := by
  rw [List.filter_map]
  rfl

instance : RecencyStore RecentStatements where
  capacity := RecentStatements.capacity
  recent := RecentStatements.entries
  capacity_ofCapacity _ _ := rfl
  recent_ofCapacity _ _ := rfl
  capacity_clear _ := rfl
  recent_clear _ := rfl
  size_eq _ := rfl
  get_eq r key := r.get_eq_lookup key
  capacity_get r key := by
    show (r.get key).2.capacity = r.capacity
    unfold RecentStatements.get
    cases r.entries.lookup key <;> rfl
  recent_get r key s found := by
    show (r.get key).2.entries = r.inFront key s
    simp only [RecentStatements.get, found]
  recent_get_absent r key absent := by
    show (r.get key).2.entries = r.entries
    simp only [RecentStatements.get, absent]
  capacity_put _ _ _ := rfl
  recent_put r key s absent := by
    have others : r.entries.filter (·.1 ≠ key) = r.entries := by
      refine List.filter_eq_self.mpr fun entry member => decide_eq_true fun same => ?_
      exact lookup_eq_none.mp absent (same ▸ List.mem_map_of_mem member)
    show (r.inFront key s).take r.capacity = ((key, s) :: r.entries).take r.capacity
    rw [RecentStatements.inFront, others]

/-! ## What is requested -/

/-- The key of the statement that is requested. A clearing requests none, and neither does a text
    that is no statement. -/
def CacheRequest.key? : CacheRequest → Option String
  | .parse text =>
    match Statement.parse text with
    | .ok _ => some (Text.trim text)
    | .error _ => none
  | .clear => none

def CacheRequest.isParse : CacheRequest → Bool
  | .parse _ => true
  | .clear => false

theorem key?_of_ok {text : String} {statement : Statement} (parsed : Statement.parse text = .ok statement) :
    (CacheRequest.parse text).key? = some (Text.trim text) := by
  simp only [CacheRequest.key?, parsed]

theorem key?_of_error {text : String} {e : Error} (failed : Statement.parse text = .error e) :
    (CacheRequest.parse text).key? = none := by
  simp only [CacheRequest.key?, failed]

/-- The key that is requested is the text without the blanks around it, which is a statement. -/
theorem key?_eq_some {text key : String} :
    (CacheRequest.parse text).key? = some key ↔
      (∃ statement, Statement.parse text = .ok statement) ∧ Text.trim text = key := by
  cases parsed : Statement.parse text with
  | error e => simp [key?_of_error parsed]
  | ok statement => simp [key?_of_ok parsed]

/-- Texts that are the same but for the blanks around them request the same. -/
theorem key?_congr {one other : String} (same : Text.trim one = Text.trim other) :
    (CacheRequest.parse one).key? = (CacheRequest.parse other).key? := by
  ext key
  rw [key?_eq_some, key?_eq_some, same]
  exact and_congr_left' (exists_congr (parse_congr_trim same))

/-- The keys of the statements that were requested since the last clearing, each once, and those of
    later requests first. -/
def recentKeys (requests : List CacheRequest) : List String :=
  ((requests.reverse.takeWhile CacheRequest.isParse).filterMap CacheRequest.key?).eraseDups

theorem nodup_recentKeys (requests : List CacheRequest) : (recentKeys requests).Nodup := nodup_eraseDups _

theorem recentKeys_clear (requests : List CacheRequest) : recentKeys (requests ++ [.clear]) = [] := by
  simp [recentKeys, CacheRequest.isParse]

theorem recentKeys_parse (requests : List CacheRequest) {text key : String}
    (requested : (CacheRequest.parse text).key? = some key) :
    recentKeys (requests ++ [.parse text]) = key :: (recentKeys requests).filter (· ≠ key) := by
  have latest : recentKeys (requests ++ [.parse text]) =
      (key :: (requests.reverse.takeWhile CacheRequest.isParse).filterMap CacheRequest.key?).eraseDups := by
    rw [recentKeys, List.reverse_concat, List.takeWhile_cons_of_pos rfl, List.filterMap_cons_some requested]
  have unequal : (fun other => !other == key) = fun other => decide (other ≠ key) := by
    funext other
    by_cases same : other = key <;> simp [same]
  rw [latest, List.eraseDups_cons, eraseDups_filter, unequal, recentKeys]

theorem recentKeys_failed (requests : List CacheRequest) {text : String}
    (failed : (CacheRequest.parse text).key? = none) :
    recentKeys (requests ++ [.parse text]) = recentKeys requests := by
  rw [recentKeys, List.reverse_concat, List.takeWhile_cons_of_pos rfl, List.filterMap_cons_none failed, recentKeys]

/-- A request for another statement, or for none, does not tell whether a key is a recent one. -/
theorem mem_recentKeys_other {requests : List CacheRequest} {text key : String}
    (other : (CacheRequest.parse text).key? ≠ some key) :
    key ∈ recentKeys (requests ++ [.parse text]) ↔ key ∈ recentKeys requests := by
  cases requested : (CacheRequest.parse text).key? with
  | none => rw [recentKeys_failed requests requested]
  | some first =>
    have distinct : key ≠ first := fun same => other (same ▸ requested)
    simp [recentKeys_parse requests requested, distinct]

/-- The last request for the statement under a key: none of the requests behind it are for that. -/
structure LastRequest (requests : List CacheRequest) (key : String) (before : List CacheRequest) (text : String)
    (between : List CacheRequest) : Prop where
  split : requests = before ++ .parse text :: between
  requested : (CacheRequest.parse text).key? = some key
  last : key ∉ between.filterMap CacheRequest.key?

/-- A statement is still kept behind these requests, if there is room for so many statements: fewer
    other ones were requested, and there was no clearing. -/
def StillKept (room : Nat) (between : List CacheRequest) : Prop :=
  .clear ∉ between ∧ (between.filterMap CacheRequest.key?).toFinset.card < room

/-- A request stands behind all the others or among them. -/
theorem split_concat {ρ : Type} {requests before after : List ρ} {last request : ρ}
    (split : requests ++ [last] = before ++ request :: after) :
    (requests = before ∧ last = request ∧ after = []) ∨
      ∃ between, after = between ++ [last] ∧ requests = before ++ request :: between := by
  rcases List.eq_nil_or_concat' after with rfl | ⟨between, other, rfl⟩
  · obtain ⟨same, last⟩ := List.append_inj' split rfl
    exact .inl ⟨same, List.cons.inj last |>.1, rfl⟩
  · have regrouped : requests ++ [last] = (before ++ request :: between) ++ [other] := by simpa using split
    obtain ⟨same, last⟩ := List.append_inj' regrouped rfl
    exact .inr ⟨between, by rw [(List.cons.inj last).1], same⟩

namespace LastRequest

variable {requests before between : List CacheRequest} {key text : String}

/-- The requests without the very last one, which is the last one for its key or behind that. -/
theorem of_concat {request : CacheRequest} (last : LastRequest (requests ++ [request]) key before text between) :
    (requests = before ∧ request = .parse text ∧ between = []) ∨
      ∃ rest, between = rest ++ [request] ∧ LastRequest requests key before text rest ∧ request.key? ≠ some key := by
  rcases split_concat last.split with here | ⟨rest, rfl, split⟩
  · exact .inl here
  · have others := last.last
    rw [List.filterMap_append, List.mem_append, not_or] at others
    refine .inr ⟨rest, rfl, ⟨split, last.requested, others.1⟩, fun same => others.2 ?_⟩
    simp [same]

theorem concat (last : LastRequest requests key before text between) {request : CacheRequest}
    (other : request.key? ≠ some key) :
    LastRequest (requests ++ [request]) key before text (between ++ [request]) := by
  refine ⟨by simp [last.split], last.requested, ?_⟩
  rw [List.filterMap_append, List.mem_append, not_or]
  refine ⟨last.last, fun among => other ?_⟩
  obtain ⟨r, member, same⟩ := List.mem_filterMap.mp among
  rwa [List.mem_singleton.mp member] at same

/-- A recently requested key has a last request that no clearing is behind. -/
theorem of_recent (among : key ∈ recentKeys requests) :
    ∃ before text between, LastRequest requests key before text between ∧ .clear ∉ between := by
  induction requests using List.reverseRecOn with
  | nil => cases among
  | append_singleton requests request ih =>
    cases request with
    | clear => rw [recentKeys_clear] at among; cases among
    | parse text =>
      by_cases same : (CacheRequest.parse text).key? = some key
      · exact ⟨requests, text, [], ⟨rfl, same, List.not_mem_nil⟩, List.not_mem_nil⟩
      · obtain ⟨before, first, between, last, uncleared⟩ := ih ((mem_recentKeys_other same).mp among)
        refine ⟨before, first, between ++ [.parse text], last.concat same, ?_⟩
        simpa using uncleared

/-- Without a clearing behind it, the key of the last request follows those requested in between. -/
theorem recentKeys_eq (last : LastRequest requests key before text between) (uncleared : .clear ∉ between) :
    ∃ rest, recentKeys requests = (between.reverse.filterMap CacheRequest.key?).eraseDups ++ key :: rest := by
  have all : ∀ request ∈ between.reverse, request.isParse = true := by
    intro request member
    cases request with
    | parse text => rfl
    | clear => exact absurd (List.mem_reverse.mp member) uncleared
  have fresh : key ∉ between.reverse.filterMap CacheRequest.key? := by
    simpa [List.mem_filterMap] using last.last
  rw [recentKeys, last.split, List.reverse_append, List.reverse_cons, List.append_assoc,
    List.takeWhile_append_of_pos all, List.singleton_append, List.takeWhile_cons_of_pos rfl,
    List.filterMap_append, List.filterMap_cons_some last.requested, List.eraseDups_append, List.removeAll,
    List.filter_cons_of_pos (by simpa using fresh), List.eraseDups_cons]
  exact ⟨_, rfl⟩

/-- With a clearing behind it, the key of the last request is no recent one. -/
theorem not_recent (last : LastRequest requests key before text between) (cleared : .clear ∈ between) :
    key ∉ recentKeys requests := by
  induction requests using List.reverseRecOn generalizing between with
  | nil => exact List.not_mem_nil
  | append_singleton requests request ih =>
    rcases last.of_concat with ⟨-, -, rfl⟩ | ⟨rest, rfl, earlier, other⟩
    · cases cleared
    · cases request with
      | clear =>
        rw [recentKeys_clear]
        exact List.not_mem_nil
      | parse text =>
        rw [mem_recentKeys_other other]
        exact ih earlier (by simpa using cleared)

/-- A key is among so many recent ones just when its statement is still kept for that room. -/
theorem mem_take_iff (last : LastRequest requests key before text between) (room : Nat) :
    key ∈ (recentKeys requests).take room ↔ StillKept room between := by
  by_cases cleared : .clear ∈ between
  · have gone : key ∉ (recentKeys requests).take room := fun among =>
      last.not_recent cleared (List.mem_of_mem_take among)
    exact iff_of_false gone fun kept => kept.1 cleared
  · obtain ⟨rest, recent⟩ := last.recentKeys_eq cleared
    have fresh : key ∉ (between.reverse.filterMap CacheRequest.key?).eraseDups := by
      simpa [List.mem_eraseDups, List.mem_filterMap] using last.last
    have others : (between.reverse.filterMap CacheRequest.key?).eraseDups.length =
        (between.filterMap CacheRequest.key?).toFinset.card := by
      rw [length_eraseDups, List.filterMap_reverse, List.toFinset_reverse]
    have front : key ∉ (between.reverse.filterMap CacheRequest.key?).eraseDups.take room := fun among =>
      fresh (List.mem_of_mem_take among)
    rw [recent, StillKept, ← others, and_iff_right cleared, List.take_append, List.mem_append, or_iff_right front,
      ← Nat.sub_pos_iff_lt]
    cases room - (between.reverse.filterMap CacheRequest.key?).eraseDups.length <;> simp

end LastRequest

/-! ## Runs of a cache -/

theorem serve_concat {σ ρ α : Type} (step : σ → ρ → α × σ) (s : σ) (requests : List ρ) (request : ρ) :
    (serve step s (requests ++ [request])).2 = (step (serve step s requests).2 request).2 := by
  induction requests generalizing s with
  | nil => rfl
  | cons first rest ih => exact ih (step s first).2

namespace StatementCache

variable {κ : Type} [StatementStore κ]

def behind (capacity : Nat) (κ : Type) [StatementStore κ] (requests : List CacheRequest) : StatementCache κ :=
  (serve StatementCache.answer (ofCapacity capacity κ) requests).2

theorem behind_parse (capacity : Nat) (requests : List CacheRequest) (text : String) :
    behind capacity κ (requests ++ [.parse text]) = ((behind capacity κ requests).parse text).2 :=
  serve_concat _ _ requests (.parse text)

theorem behind_clear (capacity : Nat) (requests : List CacheRequest) :
    behind capacity κ (requests ++ [.clear]) = (behind capacity κ requests).clear :=
  serve_concat _ _ requests .clear

variable [RecencyStore κ]

/-- What is kept, the most recently used first. -/
def entries (c : StatementCache κ) : List (String × SharedStatement) := RecencyStore.recent c.store

def keys (c : StatementCache κ) : List String := c.entries.map Prod.fst

def room (c : StatementCache κ) : Nat := RecencyStore.capacity c.store

theorem mem_keys {c : StatementCache κ} {key : String} {s : SharedStatement} (kept : (key, s) ∈ c.entries) :
    key ∈ c.keys :=
  List.mem_map.mpr ⟨(key, s), kept, rfl⟩

theorem mem_keys_iff (c : StatementCache κ) (key : String) :
    key ∈ c.keys ↔ (StatementStore.get c.store key).1.isSome = true := by
  rw [RecencyStore.get_eq, ← Option.ne_none_iff_isSome, ne_eq, lookup_eq_none, not_not]
  rfl

/-- What comes of a text: its tree is found, or there is none and the text is no statement, or it
    is parsed and put. The cache behind it follows. -/
inductive Parses (c : StatementCache κ) (text : String) : Except Error SharedStatement × StatementCache κ → Prop
  | found {s : SharedStatement} {store : κ} (kept : (Text.trim text, s) ∈ c.entries)
      (room : RecencyStore.capacity store = c.room)
      (recent : RecencyStore.recent store = (Text.trim text, s) :: c.entries.filter (·.1 ≠ Text.trim text)) :
      c.Parses text (.ok s, ⟨store, c.parsed⟩)
  | refused {e : Error} {store : κ} (absent : Text.trim text ∉ c.keys) (failed : Statement.parse text = .error e)
      (room : RecencyStore.capacity store = c.room) (recent : RecencyStore.recent store = c.entries) :
      c.Parses text (.error e, ⟨store, c.parsed⟩)
  | added {statement : Statement} {store : κ} (absent : Text.trim text ∉ c.keys)
      (parsed : Statement.parse text = .ok statement) (room : RecencyStore.capacity store = c.room)
      (recent : RecencyStore.recent store = ((Text.trim text, ⟨statement, c.parsed⟩) :: c.entries).take c.room) :
      c.Parses text (.ok ⟨statement, c.parsed⟩, ⟨store, c.parsed + 1⟩)

theorem parses (c : StatementCache κ) (text : String) : c.Parses text (c.parse text) := by
  have kept : (StatementStore.get c.store (Text.trim text)).1 = c.entries.lookup (Text.trim text) :=
    RecencyStore.get_eq c.store (Text.trim text)
  have room := RecencyStore.capacity_get c.store (Text.trim text)
  have found : ∀ s, c.entries.lookup (Text.trim text) = some s →
      RecencyStore.recent (StatementStore.get c.store (Text.trim text)).2 =
        (Text.trim text, s) :: c.entries.filter (·.1 ≠ Text.trim text) := fun _ => RecencyStore.recent_get c.store
  have absent : c.entries.lookup (Text.trim text) = none →
      RecencyStore.recent (StatementStore.get c.store (Text.trim text)).2 = c.entries :=
    RecencyStore.recent_get_absent c.store
  unfold StatementCache.parse
  dsimp only
  generalize StatementStore.get c.store (Text.trim text) = looked at *
  obtain ⟨_ | s, store⟩ := looked
  · have recent := absent kept.symm
    have missing := lookup_eq_none.mp kept.symm
    cases parsed : Statement.parse text with
    | error e => exact .refused missing parsed room recent
    | ok statement =>
      have still : (RecencyStore.recent store).lookup (Text.trim text) = none := by
        rw [recent]
        exact kept.symm
      have put := RecencyStore.recent_put store ⟨statement, c.parsed⟩ still
      rw [recent, room] at put
      exact .added missing parsed ((RecencyStore.capacity_put store _ _).trans room) put
  · obtain ⟨before, after, split, -⟩ := List.lookup_eq_some_iff.mp kept.symm
    exact .found (by simp [split]) room (found s kept.symm)

/-- What is kept behind a text is what was given for it, and what was kept before under other texts. -/
theorem Parses.entries {c d : StatementCache κ} {text : String} {outcome : Except Error SharedStatement}
    (step : c.Parses text (outcome, d)) {key : String} {s : SharedStatement} (kept : (key, s) ∈ d.entries) :
    (Text.trim text = key ∧ outcome = .ok s) ∨ (Text.trim text ≠ key ∧ (key, s) ∈ c.entries) := by
  have other (absent : Text.trim text ∉ c.keys) (before : (key, s) ∈ c.entries) : Text.trim text ≠ key := fun same =>
    absent (same ▸ mem_keys before)
  unfold StatementCache.entries at kept
  cases step with
  | found _ _ recent =>
    rw [recent, List.mem_cons, List.mem_filter] at kept
    rcases kept with same | ⟨before, different⟩
    · cases same
      exact .inl ⟨rfl, rfl⟩
    · exact .inr ⟨Ne.symm (of_decide_eq_true different), before⟩
  | refused absent _ _ recent =>
    rw [recent] at kept
    exact .inr ⟨other absent kept, kept⟩
  | added absent _ _ recent =>
    rw [recent] at kept
    rcases List.mem_cons.mp (List.mem_of_mem_take kept) with same | before
    · cases same
      exact .inl ⟨rfl, rfl⟩
    · exact .inr ⟨other absent before, before⟩

theorem Parses.room_eq {c d : StatementCache κ} {text : String} {outcome : Except Error SharedStatement}
    (step : c.Parses text (outcome, d)) : d.room = c.room := by
  cases step <;> assumption

/-! ## The kept statements are the recent ones -/

/-- Behind requests a cache holds the statements of the recent keys, as many as it has room for. Each is
    the tree that was given for the last request of its key, and the statement of every text with that key. -/
structure HoldsRecent (capacity : Nat) (κ : Type) [StatementStore κ] [RecencyStore κ] (requests : List CacheRequest)
    (c : StatementCache κ) : Prop where
  behind : c = behind capacity κ requests
  room : c.room = max 1 capacity
  keys : c.keys = (recentKeys requests).take (max 1 capacity)
  statements : ∀ key s, (key, s) ∈ c.entries → ∀ text, Text.trim text = key → Statement.parse text = .ok s.statement
  serials : ∀ key s, (key, s) ∈ c.entries → s.serial < c.parsed
  latest : ∀ key s, (key, s) ∈ c.entries → ∀ before text between, LastRequest requests key before text between →
    ((StatementCache.behind capacity κ before).parse text).1 = .ok s
  given : ∀ before text between s, requests = before ++ .parse text :: between →
    ((StatementCache.behind capacity κ before).parse text).1 = .ok s → s.serial < c.parsed

theorem holdsRecent_ofCapacity (capacity : Nat) : HoldsRecent capacity κ [] (ofCapacity capacity κ) := by
  have nothing : (ofCapacity capacity κ).entries = [] := RecencyStore.recent_ofCapacity _ _
  refine ⟨rfl, RecencyStore.capacity_ofCapacity _ _, ?_, ?_, ?_, ?_, ?_⟩
  · simp [StatementCache.keys, nothing, recentKeys]
  · simp [nothing]
  · simp [nothing]
  · simp [nothing]
  · simp

namespace HoldsRecent

variable {capacity : Nat} {requests : List CacheRequest} {c : StatementCache κ}

theorem clear (holds : HoldsRecent capacity κ requests c) : HoldsRecent capacity κ (requests ++ [.clear]) c.clear := by
  have nothing : c.clear.entries = [] := RecencyStore.recent_clear c.store
  refine ⟨?_, (RecencyStore.capacity_clear c.store).trans holds.room, ?_, ?_, ?_, ?_, ?_⟩
  · rw [behind_clear, ← holds.behind]
  · simp [StatementCache.keys, nothing, recentKeys_clear]
  · simp [nothing]
  · simp [nothing]
  · simp [nothing]
  · intro before text between s split given
    rcases split_concat split with ⟨-, impossible, -⟩ | ⟨rest, -, split⟩
    · cases impossible
    · exact holds.given before text rest s split given

/-- The tree that is given for a text is its statement, and an error is that of the text itself. -/
theorem answer (holds : HoldsRecent capacity κ requests c) {text : String} {outcome : Except Error SharedStatement}
    {d : StatementCache κ} (step : c.Parses text (outcome, d)) :
    outcome.map SharedStatement.statement = Statement.parse text := by
  cases step with
  | @found s _ kept _ _ => exact (holds.statements _ s kept text rfl).symm
  | refused _ failed _ _ => exact failed.symm
  | added _ parsed _ _ => exact parsed.symm

/-- Trees are numbered in the order in which they are made. -/
theorem serial_lt (holds : HoldsRecent capacity κ requests c) {text : String} {outcome : Except Error SharedStatement}
    {d : StatementCache κ} (step : c.Parses text (outcome, d)) :
    c.parsed ≤ d.parsed ∧ ∀ s, outcome = .ok s → s.serial < d.parsed := by
  cases step with
  | @found s _ kept _ _ =>
    refine ⟨Nat.le_refl _, ?_⟩
    rintro _ ⟨⟩
    exact holds.serials _ s kept
  | refused _ _ _ _ => exact ⟨Nat.le_refl _, by simp⟩
  | added _ _ _ _ =>
    refine ⟨Nat.le_succ _, ?_⟩
    rintro _ ⟨⟩
    exact Nat.lt_succ_self _

/-- The requested key comes to the front of the recent ones, and where there is no room for all of
    them the last one goes. -/
theorem keys_parse (holds : HoldsRecent capacity κ requests c) {text : String} {outcome : Except Error SharedStatement}
    {d : StatementCache κ} (step : c.Parses text (outcome, d)) :
    d.keys = (recentKeys (requests ++ [.parse text])).take (max 1 capacity) := by
  obtain ⟨n, room⟩ := Nat.exists_eq_succ_of_ne_zero (Nat.ne_of_gt (Nat.le_max_left 1 capacity))
  have before := holds.keys
  rw [room] at before ⊢
  cases step with
  | @found s _ kept _ recent =>
    have requested := key?_of_ok (holds.statements _ s kept text rfl)
    have among : Text.trim text ∈ (recentKeys requests).take (n + 1) := by
      rw [← before]
      exact mem_keys kept
    rw [StatementCache.keys, StatementCache.entries, recent, List.map_cons, keys_others, ← StatementCache.keys, before,
      recentKeys_parse requests requested, List.take_succ_cons, others_take (nodup_recentKeys requests) among]
  | refused _ failed _ recent =>
    rw [recentKeys_failed requests (key?_of_error failed), ← before, StatementCache.keys, StatementCache.entries,
      recent, StatementCache.keys]
  | added absent parsed _ recent =>
    rw [before] at absent
    have front := take_others fun among => absent (List.take_subset_take_left _ (Nat.le_succ n) among)
    rw [StatementCache.keys, StatementCache.entries, recent, recentKeys_parse requests (key?_of_ok parsed),
      List.take_succ_cons, front, holds.room, room, List.take_succ_cons, List.map_cons, List.map_take]
    show _ :: c.keys.take n = _
    rw [before, List.take_take, Nat.min_eq_left (Nat.le_succ n)]

theorem parse (holds : HoldsRecent capacity κ requests c) (text : String) :
    HoldsRecent capacity κ (requests ++ [.parse text]) (c.parse text).2 := by
  have behind : (c.parse text).2 = StatementCache.behind capacity κ (requests ++ [.parse text]) := by
    rw [behind_parse, ← holds.behind]
  have given : ((StatementCache.behind capacity κ requests).parse text).1 = (c.parse text).1 := by rw [← holds.behind]
  have step : c.Parses text ((c.parse text).1, (c.parse text).2) := c.parses text
  generalize (c.parse text).1 = outcome, (c.parse text).2 = d at behind given step
  have answer := holds.answer step
  obtain ⟨more, fresh⟩ := holds.serial_lt step
  refine ⟨behind, step.room_eq.trans holds.room, holds.keys_parse step, ?_, ?_, ?_, ?_⟩
  · intro key s kept other trimmed
    rcases step.entries kept with ⟨rfl, rfl⟩ | ⟨-, before⟩
    · exact (parse_congr_trim trimmed s.statement).mpr answer.symm
    · exact holds.statements key s before other trimmed
  · intro key s kept
    rcases step.entries kept with ⟨-, same⟩ | ⟨-, before⟩
    · exact fresh s same
    · exact Nat.lt_of_lt_of_le (holds.serials key s before) more
  · intro key s kept before first between last
    rcases last.of_concat with ⟨rfl, here, -⟩ | ⟨rest, -, earlier, other⟩
    · cases here
      rcases step.entries kept with ⟨-, same⟩ | ⟨different, -⟩
      · exact given.trans same
      · exact absurd (key?_eq_some.mp last.requested).2 different
    · rcases step.entries kept with ⟨rfl, rfl⟩ | ⟨-, before⟩
      · exact absurd (key?_of_ok answer.symm) other
      · exact holds.latest key s before _ first rest earlier
  · intro before first between s split reply
    rcases split_concat split with ⟨rfl, here, -⟩ | ⟨rest, -, earlier⟩
    · cases here
      exact fresh s (given.symm.trans reply)
    · exact Nat.lt_of_lt_of_le (holds.given before first rest s earlier reply) more

/-- A text that is no statement is refused, and changes nothing. -/
theorem parse_error (holds : HoldsRecent capacity κ requests c) {text : String} {e : Error}
    (failed : Statement.parse text = .error e) :
    (c.parse text).1 = .error e ∧ (c.parse text).2.entries = c.entries := by
  have step := c.parses text
  generalize c.parse text = outcome at step ⊢
  cases step with
  | found kept _ _ => cases failed.symm.trans (holds.statements _ _ kept text rfl)
  | refused _ error _ same =>
    cases error.symm.trans failed
    exact ⟨rfl, same⟩
  | added _ parsed _ _ => cases failed.symm.trans parsed

/-- A statement is given the tree of its last request where that is kept, and otherwise a tree that is
    numbered behind all that were given. -/
theorem parse_ok (holds : HoldsRecent capacity κ requests c) {text : String} {statement : Statement}
    (parsed : Statement.parse text = .ok statement) :
    ∃ s, (c.parse text).1 = .ok s ∧ s.statement = statement ∧
      ((Text.trim text ∈ c.keys ∧ ∀ before first between, LastRequest requests (Text.trim text) before first between →
          ((StatementCache.behind capacity κ before).parse first).1 = .ok s) ∨
        (Text.trim text ∉ c.keys ∧ ∀ before first rest t, requests = before ++ .parse first :: rest →
          ((StatementCache.behind capacity κ before).parse first).1 = .ok t → t.serial < s.serial)) := by
  have step := c.parses text
  generalize c.parse text = outcome at step ⊢
  cases step with
  | refused _ failed _ _ => cases failed.symm.trans parsed
  | @found s _ kept _ _ =>
    have same := Except.ok.inj ((holds.statements _ s kept text rfl).symm.trans parsed)
    exact ⟨s, rfl, same, .inl ⟨mem_keys kept, holds.latest _ s kept⟩⟩
  | added absent parsedAnew _ _ =>
    exact ⟨_, rfl, Except.ok.inj (parsedAnew.symm.trans parsed), .inr ⟨absent, holds.given⟩⟩

end HoldsRecent

theorem holdsRecent_behind (capacity : Nat) (requests : List CacheRequest) :
    HoldsRecent capacity κ requests (behind capacity κ requests) := by
  induction requests using List.reverseRecOn with
  | nil => exact holdsRecent_ofCapacity capacity
  | append_singleton requests request ih =>
    cases request with
    | parse text =>
      rw [behind_parse]
      exact ih.parse text
    | clear =>
      rw [behind_clear]
      exact ih.clear

end StatementCache

/-- Behind any requests a cache keeps the statements of the keys that were requested last, as many as it
    has room for. A text that is no statement changes nothing that is kept, nor its order. A statement
    shares the tree of the last request for it if that is still kept, and otherwise its tree is none of
    those that were given before. -/
theorem cache_keeps_recent (κ : Type) [StatementStore κ] [RecencyStore κ] (capacity : Nat)
    (requests : List CacheRequest) :
    let room := max 1 capacity
    let cache := StatementCache.behind capacity κ requests
    (cache.keys = (recentKeys requests).take room ∧
        (∀ key, key ∈ cache.keys ↔ (StatementStore.get cache.store key).1.isSome = true) ∧
        cache.size = cache.keys.length ∧ cache.size ≤ room) ∧
      (∀ text e, Statement.parse text = .error e →
        (cache.parse text).1 = .error e ∧ (cache.parse text).2.entries = cache.entries) ∧
      ∀ text statement, Statement.parse text = .ok statement →
        ∃ s, (cache.parse text).1 = .ok s ∧ s.statement = statement ∧
          (∀ before first between, LastRequest requests (Text.trim text) before first between →
            (((StatementCache.behind capacity κ before).parse first).1 = .ok s ↔ StillKept room between)) ∧
          ((∀ before first between, LastRequest requests (Text.trim text) before first between →
              ¬ StillKept room between) →
            ∀ before first rest t, requests = before ++ .parse first :: rest →
              ((StatementCache.behind capacity κ before).parse first).1 = .ok t → t.serial ≠ s.serial) := by
  intro room cache
  have holds : cache.HoldsRecent capacity κ requests := StatementCache.holdsRecent_behind capacity requests
  have size : cache.size = cache.keys.length := by
    rw [StatementCache.keys, List.length_map]
    exact RecencyStore.size_eq cache.store
  refine ⟨⟨holds.keys, cache.mem_keys_iff, size, ?_⟩, fun text e failed => holds.parse_error failed,
    fun text statement parsed => ?_⟩
  · rw [size, holds.keys]
    exact List.length_take_le _ _
  · obtain ⟨s, answer, same, origin⟩ := holds.parse_ok parsed
    rw [holds.keys] at origin
    refine ⟨s, answer, same, ?_⟩
    rcases origin with ⟨recent, shared⟩ | ⟨gone, fresh⟩
    · refine ⟨fun before first between last => ?_, fun none => ?_⟩
      · exact iff_of_true (shared before first between last) ((last.mem_take_iff room).mp recent)
      · obtain ⟨before, first, between, last, -⟩ := LastRequest.of_recent (List.mem_of_mem_take recent)
        exact absurd ((last.mem_take_iff room).mp recent) (none before first between last)
    · refine ⟨fun before first between last => iff_of_false (fun shared => ?_) fun kept => ?_, ?_⟩
      · exact Nat.lt_irrefl _ (fresh before first between s last.split shared)
      · exact gone ((last.mem_take_iff room).mpr kept)
      · exact fun _ before first rest t split given => Nat.ne_of_lt (fresh before first rest t split given)

/-- The theorem at a store of two recent statements. One of them was requested twice, so that the
    other made room for the third; the text in between that is no statement is not counted. -/
theorem cache_keeps_recent_two :
    let requests : List CacheRequest :=
      [.parse "select true;", .parse " select false;", .parse "select true; ", .parse "select", .parse "select null;"]
    let before (n : Nat) := StatementCache.behind 2 RecentStatements (requests.take n)
    let cache := StatementCache.behind 2 RecentStatements requests
    cache.keys = ["select null;", "select true;"] ∧
      (cache.parse "select").2.entries = cache.entries ∧
      (cache.parse "\tselect true;").1 = ((before 2).parse "select true; ").1 ∧
      ∃ s t, (cache.parse "select false;").1 = .ok s ∧ ((before 1).parse " select false;").1 = .ok t ∧
        t.serial ≠ s.serial := by
  intro requests before cache
  obtain ⟨⟨keys, -⟩, refused, given⟩ := cache_keeps_recent RecentStatements 2 requests
  have first : (CacheRequest.parse "select true;").key? = some "select true;" := by decide +kernel
  have again : (CacheRequest.parse "select true; ").key? = some "select true;" :=
    (key?_congr (by decide +kernel)).trans first
  have second : (CacheRequest.parse " select false;").key? = some "select false;" := by decide +kernel
  have broken : (CacheRequest.parse "select").key? = none := by decide +kernel
  have third : (CacheRequest.parse "select null;").key? = some "select null;" := by decide +kernel
  have recent : recentKeys requests = ["select null;", "select true;", "select false;"] := by
    simp [recentKeys, requests, List.takeWhile, CacheRequest.isParse, first, second, again, broken, third]
    decide
  refine ⟨?_, ?_, ?_, ?_⟩
  · rw [keys, recent]
    rfl
  · cases failed : Statement.parse "select" with
    | ok statement => simp [key?_of_ok failed] at broken
    | error e => exact (refused "select" e failed).2
  · have here : (CacheRequest.parse "\tselect true;").key? = some "select true;" :=
      (key?_congr (by decide +kernel)).trans first
    obtain ⟨⟨statement, parsed⟩, trimmed⟩ := key?_eq_some.mp here
    have last : LastRequest requests (Text.trim "\tselect true;") (requests.take 2) "select true; "
        [.parse "select", .parse "select null;"] := by
      refine ⟨rfl, by rw [again, trimmed], ?_⟩
      simp [trimmed, broken, third]
    have kept : StillKept 2 [.parse "select", .parse "select null;"] := by simp [StillKept, broken, third]
    obtain ⟨s, found, -, shared, -⟩ := given "\tselect true;" statement parsed
    exact found.trans ((shared _ _ _ last).mpr kept).symm
  · have here : (CacheRequest.parse "select false;").key? = some "select false;" :=
      (key?_congr (by decide +kernel)).trans second
    obtain ⟨⟨statement, parsed⟩, trimmed⟩ := key?_eq_some.mp here
    obtain ⟨⟨_, parsedBefore⟩, _⟩ := key?_eq_some.mp second
    obtain ⟨-, -, givenBefore⟩ := cache_keeps_recent RecentStatements 2 (requests.take 1)
    obtain ⟨t, earlier, -⟩ := givenBefore " select false;" _ parsedBefore
    obtain ⟨s, found, -, -, fresh⟩ := given "select false;" statement parsed
    have gone : Text.trim "select false;" ∉ (recentKeys requests).take 2 := by
      rw [trimmed, recent]
      decide
    have apart := fresh fun _ _ _ last kept => gone ((last.mem_take_iff 2).mpr kept)
    exact ⟨s, t, found, earlier, apart (requests.take 1) " select false;" (requests.drop 2) t rfl earlier⟩

end StreamQuery
