import Mathlib.Data.List.DropRight
import Mathlib.Data.List.Induction
import HttpsServer.Dispatch.Dispatcher

namespace HttpsServer.Dispatch

open HttpsServer.Data
open HttpsServer.Config

/-! The components that an URL is taken apart into. -/

def slashes : Nat → Text
  | 0 => []
  | count + 1 => slashes count ++ ['/']

/-- The text has a last character, and it is no slash. -/
def EndsPlain (text : Text) : Prop :=
  ∃ last, text.getLast? = some last ∧ last ≠ '/'

theorem EndsPlain.nonempty {text : Text} (plain : EndsPlain text) :
    text ≠ [] := by
  obtain ⟨last, final, _⟩ := plain
  intro empty
  rw [empty] at final
  cases final

theorem removeEndSlash_slash (text : Text) :
    removeEndSlash (text ++ ['/']) = removeEndSlash text := by
  rw [removeEndSlash]
  split
  next none_last => rw [List.getLast?_concat] at none_last; cases none_last
  next last ended =>
    rw [List.getLast?_concat] at ended
    cases ended
    rw [if_pos rfl, List.dropLast_concat]

theorem removeEndSlash_plain {text : Text} (plain : EndsPlain text) :
    removeEndSlash text = .ok text := by
  obtain ⟨last, final, notSlash⟩ := plain
  rw [removeEndSlash]
  split
  next none_last => rw [final] at none_last; cases none_last
  next found ended =>
    rw [final] at ended
    cases ended
    exact if_neg notSlash

theorem removeEndSlash_slashes {text : Text} (plain : EndsPlain text)
    (count : Nat) : removeEndSlash (text ++ slashes count) = .ok text := by
  induction count with
  | zero =>
      rw [slashes, List.append_nil]
      exact removeEndSlash_plain plain
  | succ count induction =>
      rw [slashes, ← List.append_assoc, removeEndSlash_slash]
      exact induction

theorem popSlashes_slash {text : Text} (nonempty : text ≠ []) :
    popSlashes (text ++ ['/']) = popSlashes text := by
  have positive := List.length_pos_iff.mpr nonempty
  have popped : 1 < (text ++ ['/']).length ∧
      (text ++ ['/']).getLast? = some '/' := by
    refine ⟨?_, List.getLast?_concat⟩
    rw [List.length_append, List.length_singleton]
    omega
  rw [popSlashes, if_pos popped, List.dropLast_concat]

theorem popSlashes_plain {text : Text} (plain : EndsPlain text) :
    popSlashes text = text := by
  obtain ⟨last, final, notSlash⟩ := plain
  have kept : ¬ (1 < text.length ∧ text.getLast? = some '/') := by
    intro slash
    rw [final] at slash
    exact notSlash (Option.some.inj slash.2)
  rw [popSlashes, if_neg kept]

theorem popSlashes_slashes {text : Text} (plain : EndsPlain text)
    (count : Nat) : popSlashes (text ++ slashes count) = text := by
  induction count with
  | zero =>
      rw [slashes, List.append_nil]
      exact popSlashes_plain plain
  | succ count induction =>
      rw [slashes, ← List.append_assoc, popSlashes_slash
        (List.append_ne_nil_of_left_ne_nil plain.nonempty _)]
      exact induction

theorem popSlashes_root (count : Nat) :
    popSlashes (slashes (count + 1)) = "/".toList := by
  induction count with
  | zero =>
      rw [popSlashes]
      exact if_neg (by decide)
  | succ count induction =>
      rw [slashes, popSlashes_slash]
      · exact induction
      · exact List.append_ne_nil_of_right_ne_nil _ (List.cons_ne_nil _ _)

theorem trailing_slashes (text : Text) :
    ∃ kept count, text = kept ++ slashes count ∧
      (kept = [] ∨ EndsPlain kept) := by
  induction text using List.reverseRecOn with
  | nil => exact ⟨[], 0, rfl, .inl rfl⟩
  | append_singleton before c induction =>
      by_cases slash : c = '/'
      · obtain ⟨kept, count, rfl, ended⟩ := induction
        subst slash
        exact ⟨kept, count + 1, List.append_assoc .., ended⟩
      · exact ⟨before ++ [c], 0, (List.append_nil _).symm,
          .inr ⟨c, List.getLast?_concat, slash⟩⟩

theorem substr_ok {text : Text} {position : Nat}
    (inside : position ≤ text.length) (count : Option Nat) :
    substr text position count =
      .ok (match count with
        | some count => (text.drop position).take count
        | none => text.drop position) := by
  unfold substr
  rw [if_pos inside]
  cases count <;> rfl

theorem endsPlain_append {left right : Text} (plain : EndsPlain right) :
    EndsPlain (left ++ right) := by
  obtain ⟨last, final, notSlash⟩ := plain
  refine ⟨last, ?_, notSlash⟩
  rw [List.getLast?_append, final]
  rfl

theorem endsPlain_of_not_mem {text : Text} (nonempty : text ≠ [])
    (noSlash : '/' ∉ text) : EndsPlain text := by
  refine ⟨text.getLast nonempty, List.getLast?_eq_some_getLast nonempty, ?_⟩
  intro slash
  exact noSlash (slash ▸ List.getLast_mem nonempty)

theorem parseUrl_found {url modifiedUrl : Text} {hostStart : Nat}
    (trimmed : removeEndSlash url = .ok modifiedUrl)
    (located : Text.find "://".toList modifiedUrl = some hostStart) :
    parseUrl url =
      .ok (match Text.findFrom "/".toList modifiedUrl (hostStart + 3) with
        | some posAfterHost =>
            ⟨modifiedUrl.take hostStart,
              (modifiedUrl.drop (hostStart + 3)).take
                (posAfterHost - (hostStart + 3)),
              modifiedUrl.drop posAfterHost⟩
        | none =>
            ⟨modifiedUrl.take hostStart, modifiedUrl.drop (hostStart + 3),
              "/".toList⟩) := by
  have inside : hostStart + 3 ≤ modifiedUrl.length := Text.find_bound located
  rw [parseUrl, trimmed]
  dsimp only [bind, Except.bind]
  rw [located]
  dsimp only
  rw [substr_ok (Nat.zero_le _)]
  dsimp only
  cases slash : Text.findFrom "/".toList modifiedUrl (hostStart + 3) with
  | none =>
      dsimp only [Option.map]
      rw [substr_ok inside]
      rfl
  | some posAfterHost =>
      obtain ⟨offset, found, rfl⟩ := Option.map_eq_some_iff.mp slash
      have bound := Text.find_bound found
      rw [List.length_drop] at bound
      dsimp only [Option.map]
      rw [substr_ok inside, substr_ok (by omega)]
      rfl

theorem parseUrl_notFound {url modifiedUrl : Text}
    (trimmed : removeEndSlash url = .ok modifiedUrl)
    (missing : Text.find "://".toList modifiedUrl = none) :
    parseUrl url = .ok ⟨[], [], []⟩ := by
  rw [parseUrl, trimmed]
  dsimp only [bind, Except.bind]
  rw [missing]

/-- A path as the caller sees it: what is left of it, or the root. -/
def orRoot (path : Text) : Text :=
  if path = [] then "/".toList else path

/-- The end of an URL: nothing, or a path without slashes at its end. -/
def IsUrlPath (path : Text) : Prop :=
  path = [] ∨ ∃ rest, path = '/' :: rest ∧ EndsPlain path

/-- An URL without the slashes at its end is cut behind the first mark, and at the
first slash behind the host. -/
theorem parseUrl_parts {url protocol host path : Text}
    (trimmed : removeEndSlash url =
      .ok (protocol ++ "://".toList ++ (host ++ path)))
    (located : Text.find "://".toList (protocol ++ "://".toList ++
      (host ++ path)) = some protocol.length)
    (noSlash : '/' ∉ host) (leading : path = [] ∨ ∃ rest, path = '/' :: rest) :
    parseUrl url = .ok ⟨protocol, host, orRoot path⟩ := by
  have protocolPart : (protocol ++ "://".toList ++ (host ++ path)).take
      protocol.length = protocol := by
    rw [List.append_assoc, List.take_left]
  have behindProtocol : (protocol ++ "://".toList ++ (host ++ path)).drop
      (protocol.length + 3) = host ++ path := List.drop_left' List.length_append
  rw [parseUrl_found trimmed located, Text.findFrom, protocolPart,
    behindProtocol]
  rcases leading with rfl | ⟨rest, rfl⟩
  · have noneFound : Text.find "/".toList (host ++ []) = none := by
      rw [List.append_nil]
      exact Text.find_singleton_eq_none noSlash
    rw [noneFound, List.append_nil]
    rfl
  · have found : Text.find "/".toList (host ++ '/' :: rest) =
        some host.length := Text.find_singleton noSlash rest
    have behindHost : (protocol ++ "://".toList ++ (host ++ '/' :: rest)).drop
        (host.length + (protocol.length + 3)) = '/' :: rest := by
      rw [Nat.add_comm, ← List.drop_drop, behindProtocol, List.drop_left]
    rw [found]
    dsimp only [Option.map]
    rw [behindHost, Nat.add_sub_cancel, List.take_left]
    rfl

theorem parseUrl_slashes {protocol host path : Text}
    (protocolFirst : Text.find "://".toList (protocol ++ "://".toList) =
      some protocol.length)
    (someHost : path = [] → host ≠ []) (noSlash : '/' ∉ host)
    (isPath : IsUrlPath path) (count : Nat) :
    parseUrl (protocol ++ "://".toList ++ (host ++ path) ++ slashes count) =
      .ok ⟨protocol, host, orRoot path⟩ := by
  have plain : EndsPlain (protocol ++ "://".toList ++ (host ++ path)) := by
    apply endsPlain_append
    rcases isPath with rfl | ⟨rest, _, ended⟩
    · rw [List.append_nil]
      exact endsPlain_of_not_mem (someHost rfl) noSlash
    · exact endsPlain_append ended
  have leading : path = [] ∨ ∃ rest, path = '/' :: rest :=
    isPath.imp_right fun ⟨rest, first, _⟩ => ⟨rest, first⟩
  exact parseUrl_parts (removeEndSlash_slashes plain count)
    (Text.find_append protocolFirst (host ++ path)) noSlash leading

theorem urlPath_of_written {written rest : Text} (leading : written = '/' :: rest) :
    ∃ path count, written = path ++ slashes count ∧ IsUrlPath path ∧
      orRoot path = popSlashes written := by
  obtain ⟨kept, count, rfl, empty | plain⟩ := trailing_slashes written
  · subst empty
    cases count with
    | zero => cases leading
    | succ count =>
        exact ⟨[], count + 1, rfl, .inl rfl, (popSlashes_root count).symm⟩
  · refine ⟨kept, count, rfl, .inr ?_, ?_⟩
    · cases kept with
      | nil => exact absurd rfl plain.nonempty
      | cons first kept =>
          cases leading
          exact ⟨kept, rfl, plain⟩
    · rw [popSlashes_slashes plain]
      exact if_neg plain.nonempty

theorem endsPlain_right {left right : Text} (plain : EndsPlain (left ++ right))
    (nonempty : right ≠ []) : EndsPlain right := by
  obtain ⟨last, final, notSlash⟩ := plain
  refine ⟨last, ?_, notSlash⟩
  rw [List.getLast?_append, List.getLast?_eq_some_getLast nonempty] at final
  rw [List.getLast?_eq_some_getLast nonempty]
  exact final

theorem removeEndSlash_onlySlashes (count : Nat) :
    removeEndSlash (slashes count) = .error .charIndex := by
  induction count with
  | zero =>
      rw [slashes, removeEndSlash]
      rfl
  | succ count induction =>
      rw [slashes, removeEndSlash_slash]
      exact induction

theorem host_path_split (text : Text) :
    ∃ host path, text = host ++ path ∧ '/' ∉ host ∧
      (path = [] ∨ ∃ rest, path = '/' :: rest) := by
  by_cases slash : '/' ∈ text
  · obtain ⟨host, rest, split, noSlash⟩ := List.eq_append_cons_of_mem slash
    exact ⟨host, '/' :: rest, split, noSlash, .inr ⟨rest, rfl⟩⟩
  · exact ⟨text, [], (List.append_nil _).symm, slash, .inl rfl⟩

/-- An URL that gives components with a protocol is written from them. -/
theorem parseUrl_written {url protocol host target : Text}
    (known : protocol ≠ [])
    (parsed : parseUrl url = .ok ⟨protocol, host, target⟩) :
    ∃ path count,
      url = protocol ++ "://".toList ++ (host ++ path) ++ slashes count ∧
      '/' ∉ host ∧ IsUrlPath path ∧ (path = [] → host ≠ []) ∧
      orRoot path = target := by
  obtain ⟨kept, count, rfl, empty | plain⟩ := trailing_slashes url
  · rw [empty, List.nil_append, parseUrl, removeEndSlash_onlySlashes] at parsed
    cases parsed
  have trimmed := removeEndSlash_slashes plain count
  cases located : Text.find "://".toList kept with
  | none =>
      rw [parseUrl_notFound trimmed located] at parsed
      cases parsed
      exact absurd rfl known
  | some hostStart =>
      have bound := Text.find_bound located
      obtain ⟨rest, split⟩ := Text.find_occurs located
      obtain ⟨protocolPart, isProtocol⟩ : ∃ part, part = kept.take hostStart :=
        ⟨_, rfl⟩
      have width : protocolPart.length = hostStart := by
        rw [isProtocol]
        exact List.length_take_of_le (Nat.le_of_add_right_le bound)
      have whole : kept = protocolPart ++ "://".toList ++ rest := by
        rw [isProtocol, List.append_assoc, split, List.take_append_drop]
      obtain ⟨hostPart, path, rfl, noSlash, leading⟩ := host_path_split rest
      subst whole
      rw [parseUrl_parts trimmed (located.trans (congrArg some width.symm))
        noSlash leading] at parsed
      cases parsed
      refine ⟨path, count, rfl, noSlash, ?_, ?_, rfl⟩
      · refine leading.imp_right fun ⟨more, first⟩ => ⟨more, first, ?_⟩
        rw [← List.append_assoc] at plain
        exact endsPlain_right plain (first ▸ List.cons_ne_nil _ _)
      · -- A kept text that ends in the mark would end in a slash.
        rintro rfl rfl
        rw [List.append_nil, List.append_nil] at plain
        obtain ⟨last, final, notSlash⟩ :=
          endsPlain_right plain (List.cons_ne_nil _ _)
        exact notSlash (Option.some.inj final).symm

/-! Which URLs are taken apart at all, and what into. -/

/-- The slashes at the end are removed, unless there is nothing else to stop at. -/
theorem removeEndSlash_eq (url : Text) :
    removeEndSlash url =
      if url.rdropWhile (· = '/') = [] then .error .charIndex
      else .ok (url.rdropWhile (· = '/')) := by
  induction url using List.reverseRecOn with
  | nil =>
      rw [removeEndSlash]
      rfl
  | append_singleton before c induction =>
      by_cases slash : c = '/'
      · subst slash
        rw [removeEndSlash_slash, induction, List.rdropWhile_concat,
          if_pos (decide_eq_true rfl)]
      · rw [removeEndSlash_plain ⟨c, List.getLast?_concat, slash⟩,
          List.rdropWhile_concat_neg _ _ _ (by simpa using slash),
          if_neg (List.append_ne_nil_of_right_ne_nil _ (List.cons_ne_nil _ _))]

theorem exists_notSlash_iff (url : Text) :
    (∃ c ∈ url, c ≠ '/') ↔ url.rdropWhile (· = '/') ≠ [] := by
  rw [Ne, List.rdropWhile_eq_nil_iff]
  simp

/-- Taking an URL apart stays within its bounds exactly when something is left of
it without the slashes at its end. -/
theorem parseUrl_inBounds_iff (url : Text) :
    (∃ components, parseUrl url = .ok components) ↔ ∃ c ∈ url, c ≠ '/' := by
  rw [exists_notSlash_iff]
  constructor
  · rintro ⟨components, parsed⟩ empty
    rw [parseUrl, removeEndSlash_eq, if_pos empty] at parsed
    contradiction
  · intro nonempty
    have trimmed := (removeEndSlash_eq url).trans (if_neg nonempty)
    cases located : Text.find "://".toList (url.rdropWhile (· = '/')) with
    | none => exact ⟨_, parseUrl_notFound trimmed located⟩
    | some hostStart => exact ⟨_, parseUrl_found trimmed located⟩

/-- A host that is written as an empty word in quotes. -/
def emptyHostConfig : NginxConfig :=
  .mk [.mk ["location".toList, "/proxy".toList, "ProxyHandler".toList]
    (some (.mk [.mk ["host".toList, []] none]))]

/-- The value of an absent header field, slashes only, and an empty host. -/
theorem parseUrl_outOfBounds :
    parseUrl [] = .error .charIndex ∧
      parseUrl "//".toList = .error .charIndex ∧
      (newDispatcher ∅ emptyHostConfig).map (fun _ => ()) =
        .error .charIndex := by
  refine ⟨?_, ?_, by decide +kernel⟩
  · rw [parseUrl, removeEndSlash_eq]
    rfl
  · rw [parseUrl, removeEndSlash_eq]
    rfl

/-- Written behind the text, the pattern has no occurrence before its own. -/
def OnlyAtEnd (pattern text : Text) : Prop :=
  ∀ before after, text ++ pattern = before ++ pattern ++ after → after = []

theorem OnlyAtEnd.find {pattern text : Text} (only : OnlyAtEnd pattern text) :
    Text.find pattern (text ++ pattern) = some text.length := by
  have occurs : (Text.find pattern (text ++ pattern)).isSome = true :=
    (Text.find_isSome _ _).mpr (List.suffix_append text pattern).isInfix
  obtain ⟨position, found⟩ := Option.isSome_iff_exists.mp occurs
  obtain ⟨after, split⟩ := Text.find_occurs found
  have whole : text ++ pattern =
      (text ++ pattern).take position ++ pattern ++ after := by
    rw [List.append_assoc, split, List.take_append_drop]
  have atEnd := only _ _ whole
  have bound := Text.find_bound found
  have lengths := congrArg List.length split
  rw [atEnd, List.append_nil, List.length_drop] at lengths
  rw [List.length_append] at bound lengths
  rw [found]
  congr 1
  omega

/-- The path of an URL, as it comes back: the root, or a path without slashes at its
end. -/
def IsComponentPath (path : Text) : Prop :=
  path = "/".toList ∨ (∃ rest, path = '/' :: rest) ∧ path.getLast? ≠ some '/'

theorem slashes_cons (count : Nat) :
    slashes (count + 1) = '/' :: slashes count := by
  induction count with
  | zero => rfl
  | succ count induction =>
      have behind : slashes (count + 1) ++ ['/'] =
          '/' :: (slashes count ++ ['/']) := by
        rw [induction]
        rfl
      exact behind

theorem endsPlain_of_getLast? {text : Text} (nonempty : text ≠ [])
    (ended : text.getLast? ≠ some '/') : EndsPlain text := by
  have final := List.getLast?_eq_some_getLast nonempty
  refine ⟨text.getLast nonempty, final, ?_⟩
  intro slash
  rw [final, slash] at ended
  exact ended rfl

/-- An URL gives back the components that it is written from, however many slashes
follow; one without the mark behind the protocol gives nothing. -/
theorem parseUrl_components :
    (∀ protocol host path : Text, OnlyAtEnd "://".toList protocol →
      host ≠ [] → '/' ∉ host → IsComponentPath path → ∀ count,
      parseUrl (protocol ++ "://".toList ++ host ++ path ++ slashes count) =
        .ok ⟨protocol, host, path⟩) ∧
    (∀ url : Text, (∃ c ∈ url, c ≠ '/') →
      ¬ "://".toList <:+: url.rdropWhile (· = '/') →
      parseUrl url = .ok ⟨[], [], []⟩) := by
  constructor
  · intro protocol host path only hostNonempty noSlash isPath count
    rcases isPath with rfl | ⟨⟨rest, rfl⟩, ended⟩
    · have parts := parseUrl_slashes only.find (fun _ => hostNonempty) noSlash
        (.inl rfl) (count + 1)
      have sameUrl : protocol ++ "://".toList ++ host ++ "/".toList ++
          slashes count = protocol ++ "://".toList ++ (host ++ []) ++
            slashes (count + 1) := by
        rw [slashes_cons]
        simp
      rw [sameUrl, parts]
      rfl
    · have plain : EndsPlain ('/' :: rest) :=
        endsPlain_of_getLast? (List.cons_ne_nil _ _) ended
      have parts := parseUrl_slashes only.find (fun _ => hostNonempty) noSlash
        (.inr ⟨rest, rfl, plain⟩) count
      rw [orRoot, if_neg (List.cons_ne_nil _ _)] at parts
      rw [List.append_assoc (protocol ++ _), parts]
  · intro url other missing
    have nonempty := (exists_notSlash_iff url).mp other
    have trimmed := (removeEndSlash_eq url).trans (if_neg nonempty)
    apply parseUrl_notFound trimmed
    rwa [← Text.find_isSome, Option.not_isSome_iff_eq_none] at missing

theorem onlyAtEnd_of_noColon {protocol : Text} (noColon : ':' ∉ protocol) :
    OnlyAtEnd "://".toList protocol := by
  intro before after split
  rw [List.append_assoc] at split
  rcases List.append_eq_append_iff.mp split with
    ⟨more, rfl, rest⟩ | ⟨more, rfl, rest⟩
  · have lengths := congrArg List.length rest
    simp only [List.length_append] at lengths
    exact List.eq_nil_of_length_eq_zero (by omega)
  · cases more with
    | nil =>
        exact List.append_cancel_left (rest.trans (List.append_nil _).symm)
    | cons first more =>
        have leading : some ':' = some first := congrArg List.head? rest
        cases leading
        exact absurd (List.mem_append_right _ List.mem_cons_self) noColon

theorem parseUrl_components_secure :
    parseUrl "https://www.a.org/x//y///".toList =
        .ok ⟨"https".toList, "www.a.org".toList, "/x//y".toList⟩ ∧
      parseUrl "http:///".toList = .ok ⟨[], [], []⟩ := by
  have only : OnlyAtEnd "://".toList "https".toList :=
    onlyAtEnd_of_noColon (by decide)
  have isPath : IsComponentPath "/x//y".toList :=
    .inr ⟨⟨_, rfl⟩, by decide⟩
  constructor
  · exact parseUrl_components.1 "https".toList "www.a.org".toList
      "/x//y".toList only (by decide) (by decide) isPath 3
  · exact parseUrl_components.2 _ ⟨'h', by decide, by decide⟩ (by decide)

end HttpsServer.Dispatch
