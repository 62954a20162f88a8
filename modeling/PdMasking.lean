import PdMasking.Processor
import PdMasking.Lib.Template
import PdMasking.Detectors.FinanceContacts
import PdMasking.Config
import PdMasking.Lib.Service
import PdMasking.Runs
import PdMasking.Lib.Pool
import PdMasking.Secrecy
import PdMasking.Concurrent
import PdMasking.Fallback
import PdMasking.Outages
import PdMasking.Retry
import PdMasking.Lib.Cover
import PdMasking.Restore
import PdMasking.ChatProxy
import PdMasking.Lib.Greedy
import PdMasking.Overlaps
import PdMasking.Lib.Shrink
import PdMasking.Requirements
import PdMasking.CharMask
import PdMasking.Alignment
import PdMasking.Lib.Recency
import PdMasking.MemoryStore
import PdMasking.Lib.Ties
import PdMasking.SetOrder
import PdMasking.Lib.Pattern
import PdMasking.Lib.Summary
import PdMasking.Re
import PdMasking.Detectors.Dates
import PdMasking.Detectors.Documents
import PdMasking.Detectors.Names
import PdMasking.Detectors.Address
import PdMasking.Detectors.Fio
import PdMasking.Detectors.ContextValues
import PdMasking.Detectors.Labelled
import PdMasking.Detectors.Registry
import PdMasking.TokenText
import PdMasking.TokenSites
import PdMasking.Ranks
import PdMasking.Conceal
import PdMasking.Lib.Json
import PdMasking.Synthetic
import PdMasking.LlmClient
import PdMasking.Shape
import PdMasking.Lib.Leftmost
import PdMasking.NameScan
import PdMasking.Lib.GroupOrder
import PdMasking.Candidates
import PdMasking.EvalGold
import PdMasking.CaseBlind
import PdMasking.LeakGuard
import PdMasking.GoldLabels
import PdMasking.Lib.CheckDigit
import PdMasking.Luhn
import PdMasking.Codec
import PdMasking.Deployment
import PdMasking.Workers
import PdMasking.Account
import PdMasking.ChatEndpoint
import PdMasking.HttpSession
import PdMasking.Limiter
import PdMasking.GoldFile
import PdMasking.GoldTemplate
import PdMasking.LeakCheck
import PdMasking.CardNumbers
import PdMasking.CheckDigits
import PdMasking.Lib.Contract
import PdMasking.Untrusted
