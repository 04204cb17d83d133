import MiniPascal.Main
import MiniPascal.Proofs.CommandLine.TestJournals
import MiniPascal.Proofs.Machine.Choices
import MiniPascal.Proofs.Machine.CountingLoops
import MiniPascal.Proofs.Machine.EnclosingChains
import MiniPascal.Proofs.Machine.EnvironmentGraphs
import MiniPascal.Proofs.Machine.FailedDeclarations
import MiniPascal.Proofs.Machine.GuardedBlocks
import MiniPascal.Proofs.Machine.Instantiation
import MiniPascal.Proofs.Machine.IntegerArithmetic
import MiniPascal.Proofs.Machine.MapRuns
import MiniPascal.Proofs.Machine.Subtypes
import MiniPascal.Proofs.Machine.TestRuns
import MiniPascal.Proofs.Machine.TextParts
import MiniPascal.Proofs.Machine.UnhandledErrors
import MiniPascal.Proofs.Parser.Bounds
import MiniPascal.Proofs.Parser.ExpressionCompleteness
import MiniPascal.Proofs.Parser.FaultReports
import MiniPascal.Proofs.Parser.Joining
import MiniPascal.Proofs.Parser.KeptExpressions
import MiniPascal.Proofs.Parser.ProgramAgreement
import MiniPascal.Proofs.Session.AssignedFrames
import MiniPascal.Proofs.Session.BreakOwners
import MiniPascal.Proofs.Session.Concatenation
import MiniPascal.Proofs.Session.CourseBindings
import MiniPascal.Proofs.Session.InnerUnits
import MiniPascal.Proofs.Session.KeywordCase
import MiniPascal.Proofs.Session.LexicalBinding
import MiniPascal.Proofs.Session.LineTyping
import MiniPascal.Proofs.Session.Literals
import MiniPascal.Proofs.Session.MethodCalls
import MiniPascal.Proofs.Session.NodeDistances
import MiniPascal.Proofs.Session.OverloadSelection
import MiniPascal.Proofs.Session.ReportedFailures
import MiniPascal.Proofs.Session.SpentUnits
import MiniPascal.Proofs.Session.SuperCalls
import MiniPascal.Proofs.Session.SuperLookups
import MiniPascal.Proofs.Session.UnitSplicing
import MiniPascal.Proofs.Token.Places
import MiniPascal.Proofs.Token.Respacing
import MiniPascal.Proofs.Typing.Assignability
import MiniPascal.Proofs.Typing.AssignmentSites
import MiniPascal.Proofs.Typing.CheckerState
import MiniPascal.Proofs.Typing.ConstantTypes
import MiniPascal.Proofs.Typing.MemberTypes
import MiniPascal.Proofs.Typing.ParentLoops
