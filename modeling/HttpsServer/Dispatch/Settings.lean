import HttpsServer.Dispatch.Routing

namespace HttpsServer.Dispatch

open HttpsServer.Data
open HttpsServer.Config

/-! The settings in the block of a location. -/

/-- The value of a statement with this name and nothing behind the value. -/
def setting? (name : Text) (statement : NginxConfigStatement) : Option Text :=
  match statement.tokens with
  | [first, value] => if first = name then some value else none
  | _ => none

def settings (name : Text) (block : NginxConfig) : List Text :=
  block.statements.filterMap (setting? name)

def declaredRoot (block : NginxConfig) : Text :=
  ((settings "root".toList block).getLast?).getD "/".toList

def hostOf (url : Text) : Text :=
  match parseUrl url with
  | .ok components => components.host
  | .error _ => []

def declaredHost (block : NginxConfig) : Text :=
  (((settings "host".toList block).map hostOf).getLast?).getD []

def declaredPort (block : NginxConfig) : Text :=
  ((settings "port".toList block).getLast?).getD []

theorem setting?_pair (name first value : Text)
    (childBlock : Option NginxConfig) :
    setting? name (.mk [first, value] childBlock) =
      if first = name then some value else none :=
  rfl

theorem setting?_other {name : Text} {tokens : List Text}
    (other : tokens.length ≠ 2) (childBlock : Option NginxConfig) :
    setting? name (.mk tokens childBlock) = none := by
  match tokens with
  | [] => rfl
  | [first] => rfl
  | [first, second] => contradiction
  | first :: second :: third :: rest => rfl

theorem readFileStatement_assigns {root next : Text}
    {statement : NginxConfigStatement}
    (read : readFileStatement root statement = .ok next) :
    next = (setting? "root".toList statement).getD root := by
  obtain ⟨tokens, childBlock⟩ := statement
  obtain ⟨first, found, read⟩ := Fold.bind_ok read
  by_cases pair : tokens.length = 2
  · obtain ⟨name, value, rfl⟩ := List.length_eq_two.mp pair
    cases found
    rw [setting?_pair]
    by_cases isRoot : first = "root".toList
    · rw [if_pos ⟨isRoot, pair⟩] at read
      cases read
      rw [if_pos isRoot]
      rfl
    · rw [if_neg fun both => isRoot both.1] at read
      cases read
      rw [if_neg isRoot]
      rfl
  · rw [if_neg fun both => pair both.2] at read
    cases read
    rw [setting?_other pair]
    rfl

theorem newFileHandler_root {path : Text} {block : NginxConfig}
    {handler : RequestHandler}
    (made : newHandler path block .fileHandler = .ok handler) :
    handler = .fileHandler path (declaredRoot block) := by
  obtain ⟨root, read, built⟩ := Fold.bind_ok made
  cases built
  have last : root = declaredRoot block :=
    Fold.last_given id (setting? "root".toList)
      (fun _ _ _ => readFileStatement_assigns) read
  rw [last]

theorem readProxyStatement_assigns {target next : ProxyTarget}
    {statement : NginxConfigStatement}
    (read : readProxyStatement target statement = .ok next) :
    next.host = ((setting? "host".toList statement).map hostOf).getD
        target.host ∧
      next.port = (setting? "port".toList statement).getD target.port := by
  obtain ⟨tokens, childBlock⟩ := statement
  obtain ⟨first, found, read⟩ := Fold.bind_ok read
  by_cases pair : tokens.length = 2
  · obtain ⟨name, value, rfl⟩ := List.length_eq_two.mp pair
    cases found
    rw [setting?_pair, setting?_pair]
    by_cases isHost : first = "host".toList
    · subst isHost
      rw [if_pos ⟨rfl, pair⟩] at read
      obtain ⟨url, also, read⟩ := Fold.bind_ok read
      cases also
      obtain ⟨components, parsed, read⟩ := Fold.bind_ok read
      have host : hostOf value = components.host := by
        rw [hostOf, parsed]
      by_cases refused : components.protocol ≠ "http".toList ∧
          components.protocol ≠ "https".toList
      · rw [if_pos refused] at read
        contradiction
      · rw [if_neg refused] at read
        cases read
        rw [if_pos rfl, if_neg (by decide)]
        exact ⟨host.symm, rfl⟩
    · rw [if_neg fun both => isHost both.1] at read
      rw [if_neg isHost]
      by_cases isPort : first = "port".toList
      · rw [if_pos ⟨isPort, pair⟩] at read
        cases read
        rw [if_pos isPort]
        exact ⟨rfl, rfl⟩
      · rw [if_neg fun both => isPort both.1] at read
        cases read
        rw [if_neg isPort]
        exact ⟨rfl, rfl⟩
  · rw [if_neg fun both => pair both.2, if_neg fun both => pair both.2] at read
    cases read
    rw [setting?_other pair, setting?_other pair]
    exact ⟨rfl, rfl⟩

theorem newProxyHandler_settings {path : Text} {block : NginxConfig}
    {handler : RequestHandler}
    (made : newHandler path block .proxyHandler = .ok handler) :
    ∃ unused, handler = .proxyHandler path (declaredHost block) unused
      (declaredPort block) := by
  obtain ⟨target, read, built⟩ := Fold.bind_ok made
  cases built
  have host : target.host = _ :=
    Fold.last_given ProxyTarget.host
      (fun statement => (setting? "host".toList statement).map hostOf)
      (fun _ _ _ step => (readProxyStatement_assigns step).1) read
  have port : target.port = declaredPort block :=
    Fold.last_given ProxyTarget.port (setting? "port".toList)
      (fun _ _ _ step => (readProxyStatement_assigns step).2) read
  refine ⟨target.path, ?_⟩
  rw [host, port, declaredHost, settings, List.map_filterMap]

end HttpsServer.Dispatch
