import P2PNet.Transport.Endpoint

/-! `BootstrapDiscovery::run`. The lines of the bootstrap file are read and handled
one after another. Only an `int` is caught, which is what an unknown interface
throws. -/

namespace P2PNet.Discovery

open Lib.Runs Lib.Numerals Transport

def newline : UInt8 := 10

/-- The next line and what is left of the file after it. -/
def getline (content : Bytes) : Option (Bytes × Bytes) :=
  if content = [] then none
  else some (content.takeWhile (· ≠ newline), (content.dropWhile (· ≠ newline)).tail)

lemma length_getline {content line rest : Bytes} (h : getline content = some (line, rest)) :
    rest.length < content.length := by
  rw [getline] at h
  split at h
  · cases h
  · next hne =>
    obtain rfl : (content.dropWhile (· ≠ newline)).tail = rest :=
      (Prod.ext_iff.mp (Option.some.inj h)).2
    have hle := (List.dropWhile_sublist (l := content) (· ≠ newline)).length_le
    have hpos := List.length_pos_iff.mpr hne
    rw [List.length_tail]
    omega

/-- The calls of `handshake`, and the exception that ends the run if one does. -/
structure Bootstrapped (A : Addresses) where
  handshakes : List (IPInterfaceEndpoint A)
  escaped : Option Thrown

variable {A : Addresses}

/-- One iteration of the loop, with what the iterations after it do. -/
def handleLine (A : Addresses) (socket : Socket) (line : Bytes) (rest : Bootstrapped A) :
    Bootstrapped A :=
  match endpointFromString A socket line with
  | .ok tse => { rest with handshakes := tse :: rest.handshakes }
  | .error (.int _) => rest
  | .error thrown => ⟨[], some thrown⟩

def bootstrap (A : Addresses) (socket : Socket) (content : Bytes) : Bootstrapped A :=
  match h : getline content with
  | none => ⟨[], none⟩
  | some (line, rest) =>
    have := length_getline h
    handleLine A socket line (bootstrap A socket rest)
termination_by content.length

def lines : Bytes → List Bytes
  | [] => []
  | c :: rest =>
    if c = newline then [] :: lines rest
    else
      match lines rest with
      | [] => [[c]]
      | line :: others => (c :: line) :: others

lemma lines_of_getline {content line rest : Bytes} (h : getline content = some (line, rest)) :
    lines content = line :: lines rest := by
  induction content generalizing line with
  | nil => cases h
  | cons c content ih =>
    rw [getline, if_neg (by simp), Option.some.injEq, Prod.mk.injEq] at h
    obtain ⟨rfl, rfl⟩ := h
    by_cases hc : c = newline
    · simp [lines, hc]
    · cases content with
      | nil => simp [lines, hc]
      | cons d content =>
        have hrest : lines (d :: content) = (d :: content).takeWhile (· ≠ newline) ::
            lines ((c :: d :: content).dropWhile (· ≠ newline)).tail :=
          ih (by simp [getline, hc])
        rw [lines, if_neg hc, hrest]
        simp [hc]

theorem bootstrap_eq (A : Addresses) (socket : Socket) (content : Bytes) :
    bootstrap A socket content = (lines content).foldr (handleLine A socket) ⟨[], none⟩ := by
  induction content using (measure List.length).wf.induction with
  | h content ih =>
    rw [bootstrap]
    split
    · next hnone =>
      obtain rfl : content = [] := by
        by_contra hne
        simp [getline, hne] at hnone
      rfl
    · next line rest hline =>
      rw [lines_of_getline hline, List.foldr_cons, ih rest (length_getline hline)]

/-- The line is the text `name:ip:port` of this endpoint, with the name of a registered interface
and an unsigned number as the port. -/
def Denotes (socket : Socket) (line : Bytes) (endpoint : IPInterfaceEndpoint A) : Prop :=
  ∃ name ipText portText interface,
    line = name ++ colon :: (ipText ++ colon :: portText) ∧ colon ∉ name ∧
      socket.getInterface name = some interface ∧
      A.fromString (ipText.takeWhile (· ≠ percent)) = some endpoint.ip ∧
      readNumeral 10 portText = some endpoint.port.toNat ∧ endpoint.getPrefix = name

def WellFormed (A : Addresses) (socket : Socket) (line : Bytes) : Prop :=
  ∃ endpoint : IPInterfaceEndpoint A, Denotes socket line endpoint

/-- The handshakes are those of the well-formed lines, in the order of the lines. -/
inductive Handles (socket : Socket) : List Bytes → List (IPInterfaceEndpoint A) → Prop
  | nil : Handles socket [] []
  | call {line : Bytes} {lines : List Bytes} {endpoint : IPInterfaceEndpoint A}
      {endpoints : List (IPInterfaceEndpoint A)} (h : Denotes socket line endpoint)
      (hrest : Handles socket lines endpoints) :
      Handles socket (line :: lines) (endpoint :: endpoints)
  | skip {line : Bytes} {lines : List Bytes} {endpoints : List (IPInterfaceEndpoint A)}
      (h : ¬WellFormed A socket line) (hrest : Handles socket lines endpoints) :
      Handles socket (line :: lines) endpoints

section Lines

variable {socket : Socket} {line : Bytes}

def Registered (socket : Socket) (line : Bytes) : Prop :=
  socket.getInterface (line.takeWhile (· ≠ colon)) ≠ none

lemma endpointFromString_of_denotes {endpoint : IPInterfaceEndpoint A}
    (h : Denotes socket line endpoint) : endpointFromString A socket line = .ok endpoint := by
  obtain ⟨name, ipText, portText, interface, rfl, hname, hinterface, hip, hport, heq⟩ := h
  rw [endpointFromString_of_parts hname hinterface hip hport,
    ← socket.named name interface hinterface, ← heq]

lemma registered_of_wellFormed (h : WellFormed A socket line) : Registered socket line := by
  obtain ⟨endpoint, name, ipText, portText, interface, rfl, hname, hinterface, -⟩ := h
  rw [Registered, takeWhile_name hname, hinterface]
  simp

lemma endpointFromString_of_not_registered (h : ¬Registered socket line) :
    endpointFromString A socket line = .error (.int P2PError.noSuchInterface.value) := by
  rw [endpointFromString_eq, resetEndpoint, not_not.mp h]
  rfl

lemma cut_ne_int {s : Bytes} {pos count value : ℤ} : cut s pos count ≠ .error (.int value) := by
  rw [cut]
  split <;> simp

lemma lexicalCast_ne_int {s : Bytes} {value : ℤ} : lexicalCast s ≠ .error (.int value) := by
  rw [lexicalCast]
  split
  · split <;> simp
  · simp

lemma setIPString_ne_int {s : Bytes} {value : ℤ} {e : IPInterfaceEndpoint A} :
    e.setIPString s ≠ .error (.int value) := by
  intro h
  obtain h | ⟨text, -, h⟩ := bind_error_iff.mp h
  · exact cut_ne_int h
  · split at h <;> cases h

/-- Past `resetEndpoint` nothing throws an `int`. -/
lemma fromString_ne_int {s : Bytes} {value : ℤ} {e : IPInterfaceEndpoint A} :
    e.fromString s ≠ .error (.int value) := by
  intro h
  obtain h | ⟨portText, -, h⟩ := bind_error_iff.mp h
  · exact cut_ne_int h
  obtain h | ⟨port, -, h⟩ := bind_error_iff.mp h
  · exact lexicalCast_ne_int h
  obtain h | ⟨ipText, -, h⟩ := bind_error_iff.mp h
  · exact cut_ne_int h
  · exact setIPString_ne_int h

lemma not_registered_of_int {value : ℤ}
    (h : endpointFromString A socket line = .error (.int value)) : ¬Registered socket line := by
  intro hregistered
  obtain ⟨interface, hinterface⟩ := Option.ne_none_iff_exists'.mp hregistered
  rw [endpointFromString_eq, resetEndpoint, hinterface] at h
  exact fromString_ne_int h

variable {rest : Bootstrapped A}

lemma handleLine_of_denotes {endpoint : IPInterfaceEndpoint A}
    (h : Denotes socket line endpoint) :
    handleLine A socket line rest = { rest with handshakes := endpoint :: rest.handshakes } := by
  rw [handleLine, endpointFromString_of_denotes h]

lemma handleLine_of_not_registered (h : ¬Registered socket line) :
    handleLine A socket line rest = rest := by
  rw [handleLine, endpointFromString_of_not_registered h]

/-- The ways in which the loop gets past a line. -/
lemma handleLine_cases (h : (handleLine A socket line rest).escaped = none) :
    (∃ tse, handleLine A socket line rest = { rest with handshakes := tse :: rest.handshakes }) ∨
      ¬Registered socket line := by
  rw [handleLine] at h ⊢
  cases hparsed : endpointFromString A socket line with
  | ok tse => exact .inl ⟨tse, rfl⟩
  | error thrown =>
    rw [hparsed] at h
    cases thrown with
    | int value => exact .inr (not_registered_of_int hparsed)
    | outOfRange | badLexicalCast | systemError => cases h

end Lines

section Loop

variable {socket : Socket}

open scoped Classical in
lemma length_of_handles {ls : List Bytes} {endpoints : List (IPInterfaceEndpoint A)}
    (h : Handles socket ls endpoints) :
    endpoints.length = ls.countP (fun line => WellFormed A socket line) := by
  induction h with
  | nil => rfl
  | call h _ ih => rw [List.length_cons, ih, List.countP_cons_of_pos (by simpa using ⟨_, h⟩)]
  | skip h _ ih => rw [ih, List.countP_cons_of_neg (by simpa using h)]

open scoped Classical in
lemma countP_le_handshakes {ls : List Bytes}
    (h : (ls.foldr (handleLine A socket) ⟨[], none⟩).escaped = none) :
    ls.countP (fun line => WellFormed A socket line) ≤
      (ls.foldr (handleLine A socket) ⟨[], none⟩).handshakes.length := by
  induction ls with
  | nil => simp
  | cons line ls ih =>
    rw [List.foldr_cons] at h ⊢
    by_cases hwf : WellFormed A socket line
    · obtain ⟨endpoint, hdenotes⟩ := id hwf
      rw [handleLine_of_denotes hdenotes] at h ⊢
      rw [List.countP_cons_of_pos (by simpa using hwf), List.length_cons]
      exact Nat.succ_le_succ (ih h)
    · rw [List.countP_cons_of_neg (by simpa using hwf)]
      obtain ⟨tse, heq⟩ | hunknown := handleLine_cases h
      · rw [heq] at h ⊢
        exact (ih h).trans (Nat.le_succ _)
      · rw [handleLine_of_not_registered hunknown] at h ⊢
        exact ih h

lemma handles_of_forall {ls : List Bytes}
    (h : ∀ line ∈ ls, ¬Registered socket line ∨ WellFormed A socket line) :
    (ls.foldr (handleLine A socket) ⟨[], none⟩).escaped = none ∧
      Handles socket ls (ls.foldr (handleLine A socket) ⟨[], none⟩).handshakes := by
  induction ls with
  | nil => exact ⟨rfl, .nil⟩
  | cons line ls ih =>
    obtain ⟨hline, hrest⟩ := List.forall_mem_cons.mp h
    obtain ⟨hescaped, hhandles⟩ := ih hrest
    rw [List.foldr_cons]
    obtain hunknown | ⟨endpoint, hdenotes⟩ := hline
    · rw [handleLine_of_not_registered hunknown]
      exact ⟨hescaped, .skip (fun hwf => hunknown (registered_of_wellFormed hwf)) hhandles⟩
    · rw [handleLine_of_denotes hdenotes]
      exact ⟨hescaped, .call hdenotes hhandles⟩

lemma forall_of_handles {ls : List Bytes}
    (hescaped : (ls.foldr (handleLine A socket) ⟨[], none⟩).escaped = none)
    (h : Handles socket ls (ls.foldr (handleLine A socket) ⟨[], none⟩).handshakes) :
    ∀ line ∈ ls, ¬Registered socket line ∨ WellFormed A socket line := by
  induction ls with
  | nil => simp
  | cons line ls ih =>
    rw [List.forall_mem_cons]
    rw [List.foldr_cons] at hescaped h
    obtain ⟨tse, heq⟩ | hunknown := handleLine_cases hescaped
    · rw [heq] at hescaped h
      cases h with
      | call hdenotes hrest => exact ⟨.inr ⟨tse, hdenotes⟩, ih hescaped hrest⟩
      | skip hwf hrest =>
        -- one call too many for the well-formed lines that are left
        have hmany := length_of_handles hrest
        have hfew := countP_le_handshakes hescaped
        rw [List.length_cons] at hmany
        omega
    · rw [handleLine_of_not_registered hunknown] at hescaped h
      refine ⟨.inl hunknown, ih hescaped ?_⟩
      generalize (ls.foldr (handleLine A socket) ⟨[], none⟩).handshakes = endpoints at h ⊢
      cases h with
      | call hdenotes hrest => exact absurd (registered_of_wellFormed ⟨_, hdenotes⟩) hunknown
      | skip hwf hrest => exact hrest

end Loop

theorem bootstrap_survives_iff (A : Addresses) (socket : Socket) (content : Bytes) :
    ((bootstrap A socket content).escaped = none ∧
      Handles socket (lines content) (bootstrap A socket content).handshakes) ↔
    ∀ line ∈ lines content,
      socket.getInterface (line.takeWhile (· ≠ colon)) = none ∨ WellFormed A socket line := by
  rw [bootstrap_eq]
  constructor
  · rintro ⟨hescaped, hhandles⟩ line hline
    simpa only [Registered, not_not] using forall_of_handles hescaped hhandles line hline
  · intro h
    apply handles_of_forall
    intro line hline
    simpa only [Registered, not_not] using h line hline

/-- A port that is no number ends the run before the good line after it. -/
theorem bootstrap_stopped :
    let content := ascii "UDP:10.0.0.1:x\nUDP:10.0.0.1:6341\n"
    lines content = [ascii "UDP:10.0.0.1:x", ascii "UDP:10.0.0.1:6341"] ∧
      endpointFromString sampleAddresses Socket.sample (ascii "UDP:10.0.0.1:6341") =
        .ok (sampleEndpoint (.v4 10 0 0 1) 6341) ∧
      (bootstrap sampleAddresses Socket.sample content).escaped = some .badLexicalCast ∧
      (bootstrap sampleAddresses Socket.sample content).handshakes = [] := by
  intro content
  have hlines : lines content = [ascii "UDP:10.0.0.1:x", ascii "UDP:10.0.0.1:6341"] := by decide
  refine ⟨hlines, rfl, ?_, ?_⟩
  · rw [bootstrap_eq, hlines]
    rfl
  · rw [bootstrap_eq, hlines]
    rfl

end P2PNet.Discovery
