import Unjar.ClassFile.Name
import Unjar.Coordinate

/-!
Known packages.

A table of package prefixes tells which artifact a type belongs to.  A prefix matches a package
that is equal to it or lies beneath it; the longest prefix wins, and of several equally long ones
the first.

Main definitions:

* `Unjar.PackageRow`, `Unjar.PackageTable.known` — rows and the built-in table;
* `Unjar.PackageTable.packageOf` — the package of a type;
* `Unjar.PackageTable.match?` — the dependency that a type stands for;
* `Unjar.PackageTable.baseline` — the dependencies of every project without a descriptor.
-/

set_option autoImplicit false

namespace Unjar

/-- A row: a package and the artifact that holds it. -/
structure PackageRow where
  packageName : Text
  /-- The group of the artifact. -/
  groupId : Text
  artifactId : Text
  /-- The version of the artifact. -/
  version : Text
deriving DecidableEq, Repr

/-- Rows in order. -/
abbrev PackageTable := List PackageRow

/-- The dependency on the artifact of a row. -/
def PackageRow.coordinate (row : PackageRow) : Coordinate :=
  .plain row.groupId row.artifactId row.version Coordinate.compileScope "package-prefix".toList

namespace PackageTable

/-! ### Matching -/

/-- The package of a type in dotted form.  A type without a dot, or with none but one in front, has
no package. -/
def packageOf (type : Name) : Option Name :=
  match cutAtLast '.'.toNat type with
  | some (package, _) => if package.isEmpty then none else some package
  | none => none

/-- Whether a package is equal to another or lies beneath it. -/
def isWithin (package outer : Name) : Bool :=
  package == outer || (outer ++ ['.'.toNat]).isPrefixOf package

/-- The row with the longest prefix around a package, the first of several; `best` is the best row
so far. -/
def bestRow (package : Name) (best : Option PackageRow) : PackageTable → Option PackageRow
  | [] => best
  | row :: more =>
    if !isWithin package (Text.codePoints row.packageName) then bestRow package best more
    else match best with
      | none => bestRow package (some row) more
      | some held =>
        if held.packageName.length < row.packageName.length then bestRow package (some row) more
        else bestRow package best more

/-- **The dependency that a type stands for.** -/
def match? (table : PackageTable) (type : Name) : Option Coordinate := do
  let package ← packageOf type
  let row ← bestRow package none table
  pure row.coordinate

/-! ### The built-in table -/

/-- A row from literals. -/
def row (packageName groupId artifactId version : String) : PackageRow :=
  ⟨packageName.toList, groupId.toList, artifactId.toList, version.toList⟩

/-- The built-in table. -/
def known : PackageTable := [
  row "org.springframework" "org.springframework" "spring-core" "5.3.9",
  row "javax.servlet" "javax.servlet" "javax.servlet-api" "4.0.1",
  row "org.hibernate" "org.hibernate" "hibernate-core" "5.5.7.Final",
  row "com.fasterxml.jackson" "com.fasterxml.jackson.core" "jackson-core" "2.13.0",
  row "com.fasterxml.jackson.databind" "com.fasterxml.jackson.core" "jackson-databind" "2.13.0",
  row "com.fasterxml.jackson.annotation" "com.fasterxml.jackson.core" "jackson-annotations" "2.13.0",
  row "org.apache.commons" "org.apache.commons" "commons-lang3" "3.12.0",
  row "org.apache.commons.io" "commons-io" "commons-io" "2.11.0",
  row "org.apache.commons.codec" "commons-codec" "commons-codec" "1.15",
  row "org.apache.commons.collections4" "org.apache.commons" "commons-collections4" "4.4",
  row "org.slf4j" "org.slf4j" "slf4j-api" "1.7.32",
  row "ch.qos.logback" "ch.qos.logback" "logback-classic" "1.2.6",
  row "org.apache.logging.log4j" "org.apache.logging.log4j" "log4j-api" "2.17.1",
  row "com.google.common" "com.google.guava" "guava" "31.0.1-jre",
  row "com.google.gson" "com.google.code.gson" "gson" "2.8.9",
  row "lombok" "org.projectlombok" "lombok" "1.18.22",
  row "org.apache.http" "org.apache.httpcomponents" "httpclient" "4.5.13",
  row "okhttp3" "com.squareup.okhttp3" "okhttp" "4.9.3",
  row "org.yaml.snakeyaml" "org.yaml" "snakeyaml" "1.29",
  row "javax.persistence" "javax.persistence" "javax.persistence-api" "2.2",
  row "javax.validation" "javax.validation" "validation-api" "2.0.1.Final",
  row "org.mybatis" "org.mybatis" "mybatis" "3.5.9",
  row "redis.clients.jedis" "redis.clients" "jedis" "3.7.0",
  row "io.netty" "io.netty" "netty-all" "4.1.72.Final",
  row "org.junit.jupiter" "org.junit.jupiter" "junit-jupiter-api" "5.8.2",
  row "org.junit" "junit" "junit" "4.13.2",
  row "org.mockito" "org.mockito" "mockito-core" "3.12.4"]

/-- The dependencies of every project whose archive holds no descriptor. -/
def baseline : List Coordinate :=
  let entry := fun (groupId artifactId version scope : String) =>
    Coordinate.plain groupId.toList artifactId.toList version.toList scope.toList
      "baseline".toList
  [entry "org.slf4j" "slf4j-api" "1.7.32" "compile",
    entry "junit" "junit" "4.13.2" "test",
    entry "org.mockito" "mockito-core" "3.12.4" "test"]

end PackageTable

end Unjar
