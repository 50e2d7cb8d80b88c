import TasScript.Data.Except
import TasScript.Data.List
import TasScript.Session.Call
import TasScript.Token.Reading
import TasScript.Main
import TasScript.Proofs.Derivation
import TasScript.Proofs.Walk
import TasScript.Proofs.FlagRun
import TasScript.Proofs.Gathering
import TasScript.Proofs.Account
import TasScript.Proofs.Conformance
import TasScript.Proofs.Conservation
import TasScript.Proofs.Duration
import TasScript.Proofs.Satisfaction
import TasScript.Proofs.Application
import TasScript.Proofs.History
import TasScript.Proofs.ActiveSet
import TasScript.Proofs.FloatOrder
import TasScript.Proofs.Nearness
import TasScript.Proofs.Comparing
import TasScript.Proofs.Block
import TasScript.Proofs.CheckLine
import TasScript.Proofs.NumeralValue
import TasScript.Proofs.Scheduling
import TasScript.Proofs.DueChecks
import TasScript.Proofs.Replays
import TasScript.Proofs.FlagLoop
import TasScript.Proofs.FlagSet
import TasScript.Check.Request
import TasScript.Proofs.Waiting
import TasScript.Proofs.Invoking
import TasScript.Proofs.Failure
import TasScript.Proofs.Answers
import TasScript.Proofs.UsableDuration
import TasScript.Proofs.Stopping
import TasScript.Proofs.Lookahead
import TasScript.Proofs.Positions
import TasScript.Proofs.Diagnosis
import TasScript.Proofs.Onward
import TasScript.Proofs.Commitment
import TasScript.ActiveTools.Operation
import TasScript.Proofs.ToolLog
import TasScript.Proofs.Restarting
import TasScript.Proofs.LetterCase
import TasScript.Proofs.Caseless
import TasScript.Proofs.Declining
import TasScript.Proofs.Aim
import TasScript.Proofs.FlagRounds
import TasScript.Proofs.LongestNumeral
import TasScript.Proofs.Untouched
import TasScript.Proofs.Leniency
import TasScript.Proofs.Steering
import TasScript.Proofs.Description
import TasScript.Proofs.WellFormed
import TasScript.Proofs.Clash
import TasScript.Proofs.WholeTurns
import TasScript.Proofs.Numbering
import TasScript.Proofs.Interchange
