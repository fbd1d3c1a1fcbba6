import Wordbook.Main
import Wordbook.Proofs.Text.Spelling
import Wordbook.Proofs.Json.Dialect
import Wordbook.Proofs.Json.Number
import Wordbook.Proofs.Json.Text
import Wordbook.Proofs.Json.Tree
import Wordbook.Proofs.Json.Value
import Wordbook.Proofs.Ranking
import Wordbook.Proofs.Schema
import Wordbook.Proofs.Toml.Dialect
import Wordbook.Proofs.Toml.Reader
import Wordbook.Proofs.Toml.Tables
import Wordbook.Proofs.Toml.Text
import Wordbook.Proofs.Toml.Value
import Wordbook.Proofs.Word.Command
import Wordbook.Proofs.Word.Find
import Wordbook.Proofs.Word.Search
import Wordbook.Proofs.Completion
import Wordbook.Proofs.LineEdit
import Wordbook.Proofs.Choices
import Wordbook.Proofs.Dictionary
import Wordbook.Proofs.Registration
import Wordbook.Proofs.Growth
import Wordbook.Proofs.Lookup
import Wordbook.Proofs.Entry
import Wordbook.Proofs.Lint
import Wordbook.Proofs.Tidy
import Wordbook.Proofs.Record
import Wordbook.Proofs.Datum
import Wordbook.Proofs.Json.Grammar
import Wordbook.Proofs.Json.Reading
import Wordbook.Proofs.Json.Decoding
import Wordbook.Proofs.Toml.Layout
import Wordbook.Proofs.Toml.Grammar
import Wordbook.Proofs.Toml.Placing
import Wordbook.Proofs.Toml.Building
import Wordbook.Proofs.Toml.Strings
import Wordbook.Proofs.Toml.Scanning
import Wordbook.Proofs.Toml.Reading
import Wordbook.Proofs.Toml.Flat
import Wordbook.Proofs.Agreement
import Wordbook.Proofs.Views
import Wordbook.Proofs.Hint
import Wordbook.Proofs.Settings
import Wordbook.Proofs.Session
import Wordbook.Proofs.Text.Lines
import Wordbook.Proofs.Dialogue
import Wordbook.Proofs.Election
import Wordbook.Proofs.Word.Passes
import Wordbook.Proofs.Word.Whole
import Wordbook.Proofs.Word.Local
import Wordbook.Proofs.Completable
import Wordbook.Proofs.Warnings
import Wordbook.Proofs.Contents
import Wordbook.Proofs.Signature
import Wordbook.Proofs.Text.Boundary
import Wordbook.Proofs.Help
import Wordbook.Proofs.TypeHelp
